import LiveTables.Engine.Load
import LiveTables.Proofs.Naming

/-!
# Values for listed columns

An insert may list columns in any order and leave some out. The list has to name columns of the
table, none of them twice. Each value of a row then goes into the column at whose name it stands,
and a column that is left out holds nothing. Whole rows that are appended go in by position, which
is the same if the list names the columns of the table in their order.
-/

namespace LiveTables.Engine

open LiveTables.Sql LiveTables.Text

/-! ### Lists of names -/

theorem repeated?_eq_none_iff {names : List String} :
    repeated? names = none ↔ (names.map lower).Nodup := by
  induction names with
  | nil => simp [repeated?]
  | cons name names ih =>
      have hany : names.any (equalIgnoringCase name) = true ↔ lower name ∈ names.map lower := by
        simp only [List.any_eq_true, equalIgnoringCase_iff, List.mem_map]
        exact exists_congr fun other => and_congr_right fun _ => eq_comm
      rw [repeated?, List.map_cons, List.nodup_cons, ← ih, ← hany]
      split_ifs with h
      · simp [h]
      · simp [h]

theorem isSome_findColumn?_iff {columns : List ColumnDef} {name : String} :
    (findColumn? columns name).isSome = true ↔
      ∃ column ∈ columns, lower column.name = lower name := by
  simp [findColumn?, equalIgnoringCase_iff]

theorem checkListed_eq_ok_iff {columns : List ColumnDef} {listed : List String} :
    checkListed columns listed = .ok () ↔
      (∀ name ∈ listed, ∃ column ∈ columns, lower column.name = lower name) ∧
        (listed.map lower).Nodup := by
  have hknown : (listed.find? fun name => (findColumn? columns name).isNone) = none ↔
      ∀ name ∈ listed, ∃ column ∈ columns, lower column.name = lower name := by
    simp only [List.find?_eq_none, ← isSome_findColumn?_iff]
    refine forall₂_congr fun name _ => ?_
    cases findColumn? columns name <;> simp
  rw [← hknown, ← repeated?_eq_none_iff, checkListed]
  cases listed.find? fun name => (findColumn? columns name).isNone with
  | some name => simp
  | none => cases repeated? listed <;> simp

/-! ### Single columns -/

section Column

variable {listed : List String} {values : List Value} {column : ColumnDef}

theorem valueFor_of_listed (hdistinct : (listed.map lower).Nodup) {position : Nat} {name : String}
    {value : Value} (hname : listed[position]? = some name)
    (hvalue : values[position]? = some value) (hcolumn : lower name = lower column.name) :
    valueFor (listed.zip values) column = value := by
  induction listed generalizing values position with
  | nil => simp at hname
  | cons head rest ih =>
      obtain ⟨hhead, hrest⟩ := List.nodup_cons.1 hdistinct
      cases values with
      | nil => simp at hvalue
      | cons first values =>
          cases position with
          | zero =>
              simp only [List.getElem?_cons_zero, Option.some.injEq] at hname hvalue
              have hmatch : equalIgnoringCase head column.name = true :=
                equalIgnoringCase_iff.2 (hname ▸ hcolumn)
              simp [valueFor, hmatch, hvalue]
          | succ position =>
              simp only [List.getElem?_cons_succ] at hname hvalue
              have hother : equalIgnoringCase head column.name = false := by
                rw [Bool.eq_false_iff, ne_eq, equalIgnoringCase_iff, ← hcolumn]
                exact fun heq => hhead (heq ▸ List.mem_map_of_mem (List.mem_of_getElem? hname))
              have htail := ih hrest hname hvalue
              simpa [valueFor, hother] using htail

theorem valueFor_of_unlisted (h : ∀ name ∈ listed, lower name ≠ lower column.name) :
    valueFor (listed.zip values) column = .null := by
  have hnone : (listed.zip values).find? (fun entry => equalIgnoringCase entry.1 column.name) =
      none := by
    rw [List.find?_eq_none]
    intro entry hentry
    rw [equalIgnoringCase_iff]
    exact h entry.1 (List.of_mem_zip hentry).1
  simp [valueFor, hnone]

theorem storeValue_null_eq_ok_iff {held : Value} :
    storeValue column .null = .ok held ↔ held = .null ∧ column.required = false := by
  have hstored : storedAs? column.type .null = some .null := by cases column.type <;> rfl
  rw [storeValue, hstored]
  cases column.required <;> simp [eq_comm]

/-- What a column holds of values that are given for listed columns: the value at the position of
its name, or nothing if it is not listed. -/
structure Holds (listed : List String) (values : List Value) (column : ColumnDef) (held : Value) :
    Prop where
  named : ∀ (position : Nat) name value, listed[position]? = some name →
    values[position]? = some value → lower name = lower column.name →
    storeValue column value = .ok held
  unnamed : (∀ name ∈ listed, lower name ≠ lower column.name) →
    held = .null ∧ column.required = false

theorem holds_iff (hdistinct : (listed.map lower).Nodup) (hlength : values.length = listed.length)
    {held : Value} : Holds listed values column held ↔
      storeValue column (valueFor (listed.zip values) column) = .ok held := by
  by_cases hlisted : ∃ name ∈ listed, lower name = lower column.name
  · obtain ⟨name, hname, hcolumn⟩ := hlisted
    obtain ⟨position, hposition, hget⟩ := List.getElem_of_mem hname
    have hname? : listed[position]? = some name := by
      rw [List.getElem?_eq_getElem hposition, hget]
    have hvalue : values[position]? = some values[position] :=
      List.getElem?_eq_getElem (hlength ▸ hposition)
    rw [valueFor_of_listed hdistinct hname? hvalue hcolumn]
    constructor
    · intro h
      exact h.named position name _ hname? hvalue hcolumn
    · intro h
      refine ⟨fun other name' value hname' hvalue' hcolumn' => ?_, fun hall => ?_⟩
      · rw [← valueFor_of_listed hdistinct hname' hvalue' hcolumn',
          valueFor_of_listed hdistinct hname? hvalue hcolumn, h]
      · exact absurd hcolumn (hall name hname)
  · have hall : ∀ name ∈ listed, lower name ≠ lower column.name :=
      fun name hname hcolumn => hlisted ⟨name, hname, hcolumn⟩
    rw [valueFor_of_unlisted hall, storeValue_null_eq_ok_iff]
    constructor
    · intro h
      exact h.unnamed hall
    · intro h
      refine ⟨fun position name value hname _ hcolumn => ?_, fun _ => h⟩
      exact absurd hcolumn (hall name (List.mem_of_getElem? hname))

end Column

/-! ### Rows -/

theorem storeRow_map_eq_ok_iff {columns : List ColumnDef} {value : ColumnDef → Value}
    {stored : List Value} : storeRow columns (columns.map value) = .ok stored ↔
      List.Forall₂ (fun column held => storeValue column (value column) = .ok held)
        columns stored := by
  induction columns generalizing stored with
  | nil => simp [storeRow, eq_comm]
  | cons column columns ih =>
      rw [List.forall₂_cons_left_iff, List.map_cons, storeRow]
      simp only [← ih]
      cases storeValue column (value column) with
      | error cause => simp [bind, Except.bind]
      | ok held =>
          cases storeRow columns (columns.map value) with
          | error cause => simp [bind, Except.bind]
          | ok rest => simp [bind, Except.bind, eq_comm]

theorem arrangeRow_eq_ok_iff {columns : List ColumnDef} {listed : List String}
    (hdistinct : (listed.map lower).Nodup) {values stored : List Value} :
    arrangeRow columns listed values = .ok stored ↔
      values.length = listed.length ∧ List.Forall₂ (Holds listed values) columns stored := by
  unfold arrangeRow
  by_cases hlength : values.length = listed.length
  · have hholds : Holds listed values =
        fun column held => storeValue column (valueFor (listed.zip values) column) = .ok held :=
      funext₂ fun column held => propext (holds_iff hdistinct hlength)
    simp [hlength, hholds, storeRow_map_eq_ok_iff]
  · simp [hlength]

theorem mapM_eq_ok_iff {α β ε : Type} {f : α → Except ε β} {xs : List α} {ys : List β} :
    xs.mapM f = .ok ys ↔ List.Forall₂ (fun x y => f x = .ok y) xs ys := by
  induction xs generalizing ys with
  | nil => simp [pure, Except.pure, eq_comm]
  | cons x xs ih =>
      rw [List.forall₂_cons_left_iff, List.mapM_cons]
      simp only [← ih]
      cases f x with
      | error cause => simp [bind, Except.bind]
      | ok y =>
          cases xs.mapM f with
          | error cause => simp [bind, Except.bind]
          | ok rest => simp [bind, Except.bind, pure, Except.pure, eq_comm]

theorem mapM_congr {α β ε : Type} {f g : α → Except ε β} {xs : List α}
    (h : ∀ x ∈ xs, f x = g x) : xs.mapM f = xs.mapM g := by
  induction xs with
  | nil => rfl
  | cons x xs ih =>
      rw [List.mapM_cons, List.mapM_cons, h x List.mem_cons_self,
        ih fun other hother => h other (List.mem_cons_of_mem _ hother)]

/-- A list of the columns in their order, in any spelling, puts each value where it stands. -/
theorem arrangeRow_of_declared {columns : List ColumnDef} {listed : List String}
    (hdistinct : (listed.map lower).Nodup)
    (hdeclared : listed.map lower = columns.map fun column => lower column.name)
    {values : List Value} (hlength : values.length = listed.length) :
    arrangeRow columns listed values = storeRow columns values := by
  have hcolumns : listed.length = columns.length := by simpa using congrArg List.length hdeclared
  have hvalues : columns.map (valueFor (listed.zip values)) = values := by
    apply List.ext_getElem (by simp [hlength, hcolumns])
    intro position hposition hvalue
    rw [List.length_map] at hposition
    rw [List.getElem_map]
    have hname := List.getElem?_eq_getElem (hcolumns ▸ hposition)
    have hsame := congrArg (·[position]?) hdeclared
    rw [List.getElem?_map, List.getElem?_map, hname, List.getElem?_eq_getElem hposition] at hsame
    exact valueFor_of_listed hdistinct hname (List.getElem?_eq_getElem hvalue)
      (Option.some.inj hsame)
  simp [arrangeRow, hlength, hvalues]

/-! ### Tables -/

/-- A store in which rows with values for listed columns have been added to a table. -/
def Inserts (store : Store) (table : String) (listed : List String) (rows : List (List Value))
    (after : Store) : Prop :=
  ∃ columns present stored, store.find? (lower table) = some (.table columns present) ∧
    (∀ name ∈ listed, ∃ column ∈ columns, lower column.name = lower name) ∧
    (listed.map lower).Nodup ∧
    List.Forall₂ (fun values row => values.length = listed.length ∧
      List.Forall₂ (Holds listed values) columns row) rows stored ∧
    after = store.insert (lower table) (.table columns (present ++ stored))

theorem tableOf_eq_ok_iff {store : Store} {table : String} {columns : List ColumnDef}
    {rows : List (List Value)} : store.tableOf table = .ok (columns, rows) ↔
      store.find? (lower table) = some (.table columns rows) := by
  unfold Store.tableOf
  cases store.find? (lower table) with
  | none => simp
  | some relation => cases relation <;> simp

theorem insertRows_eq_ok_iff {store after : Store} {table : String} {listed : List String}
    {rows : List (List Value)} :
    store.insertRows table (some listed) rows = .ok after ↔
      Inserts store table listed rows after := by
  unfold Inserts
  simp only [← tableOf_eq_ok_iff]
  cases htable : store.tableOf table with
  | error cause => simp [Store.insertRows, htable, bind, Except.bind]
  | ok found =>
      obtain ⟨columns, present⟩ := found
      cases hlisted : checkListed columns listed with
      | error cause =>
          have hrefused : ¬ ((∀ name ∈ listed, ∃ column ∈ columns, lower column.name = lower name) ∧
              (listed.map lower).Nodup) := by
            simp [← checkListed_eq_ok_iff, hlisted]
          simp only [Store.insertRows, htable, hlisted, bind, Except.bind, reduceCtorEq, false_iff]
          rintro ⟨columns', present', stored, hfound, hknown, hdistinct, _⟩
          cases hfound
          exact hrefused ⟨hknown, hdistinct⟩
      | ok _ =>
          obtain ⟨hknown, hdistinct⟩ := checkListed_eq_ok_iff.1 hlisted
          have hrows : ∀ {stored}, rows.mapM (arrangeRow columns listed) = .ok stored ↔
              List.Forall₂ (fun values row => values.length = listed.length ∧
                List.Forall₂ (Holds listed values) columns row) rows stored := by
            intro stored
            simp only [mapM_eq_ok_iff, arrangeRow_eq_ok_iff hdistinct]
          constructor
          · intro h
            cases hstored : rows.mapM (arrangeRow columns listed) with
            | error cause =>
              simp [Store.insertRows, htable, hlisted, hstored, bind, Except.bind] at h
            | ok stored =>
                simp only [Store.insertRows, htable, hlisted, hstored, bind, Except.bind,
                  Except.ok.injEq] at h
                exact ⟨columns, present, stored, rfl, hknown, hdistinct, hrows.1 hstored, h.symm⟩
          · rintro ⟨columns', present', stored, hfound, _, _, hforall, rfl⟩
            cases hfound
            simp [Store.insertRows, htable, hlisted, hrows.2 hforall, Store.addRows, bind,
              Except.bind]

/-- The list names the columns of a table in their order, in any spelling. -/
def Declares (store : Store) (table : String) (listed : List String) : Prop :=
  ∃ columns rows, store.find? (lower table) = some (.table columns rows) ∧
    listed.map lower = columns.map fun column => lower column.name

/-! ### Appended rows -/

theorem storeRows_of_mapM_ok {columns : List ColumnDef} {rows stored : List (List Value)}
    (h : rows.mapM (storeRow columns) = .ok stored) :
    Connection.storeRows columns rows = (stored, .ok ()) := by
  rw [mapM_eq_ok_iff] at h
  induction h with
  | nil => rfl
  | cons hrow _ ih => rw [Connection.storeRows, hrow, ih]

theorem storeRows_of_mapM_error {columns : List ColumnDef} {rows : List (List Value)}
    {cause : Rejection} (h : rows.mapM (storeRow columns) = .error cause) :
    (Connection.storeRows columns rows).2 = .error cause := by
  induction rows with
  | nil => cases h
  | cons values rest ih =>
      rw [Connection.storeRows]
      rw [List.mapM_cons] at h
      cases hrow : storeRow columns values with
      | error other => simpa [hrow, bind, Except.bind] using h
      | ok row =>
          cases hrest : rest.mapM (storeRow columns) with
          | error other =>
              obtain rfl : other = cause := by simpa [hrow, hrest, bind, Except.bind] using h
              exact ih hrest
          | ok stored => simp [hrow, hrest, bind, Except.bind, pure, Except.pure] at h

/-- Appending whole rows is inserting them for all columns in their order, but for what is left of
them when one cannot be stored. -/
theorem appendTo_eq_insertRows {refusals : Refusals} {store : Store} {table : String}
    {listed : List String} (hdeclares : Declares store table listed)
    (hdistinct : (listed.map lower).Nodup) {rows : List (List Value)}
    (hwidths : ∀ row ∈ rows, row.length = listed.length)
    (hwilling : refusals.append table (store.find? (lower table)) rows = none) :
    (Connection.appendTo refusals store table rows).1 =
        (store.insertRows table (some listed) rows).map (fun _ => ()) ∧
      ∀ after, store.insertRows table (some listed) rows = .ok after →
        (Connection.appendTo refusals store table rows).2 = after := by
  obtain ⟨columns, present, hfind, hdeclared⟩ := hdeclares
  have hlisted : checkListed columns listed = .ok () := by
    refine checkListed_eq_ok_iff.2 ⟨fun name hname => ?_, hdistinct⟩
    have hmem : lower name ∈ columns.map fun column => lower column.name :=
      hdeclared ▸ List.mem_map_of_mem hname
    exact List.mem_map.1 hmem
  have hrows : rows.mapM (arrangeRow columns listed) = rows.mapM (storeRow columns) :=
    mapM_congr fun row hrow => arrangeRow_of_declared hdistinct hdeclared (hwidths row hrow)
  have htable := tableOf_eq_ok_iff.2 hfind
  cases hstored : rows.mapM (storeRow columns) with
  | ok stored =>
      have hinsert : store.insertRows table (some listed) rows =
          .ok (store.addRows table columns present stored) := by
        simp [Store.insertRows, htable, hlisted, hrows, hstored, bind, Except.bind]
      have happend : Connection.appendTo refusals store table rows =
          (.ok (), store.addRows table columns present stored) := by
        simp [Connection.appendTo, Connection.takeRows, htable, hwilling,
          storeRows_of_mapM_ok hstored]
      rw [hinsert, happend]
      exact ⟨rfl, fun after hafter => Except.ok.inj hafter⟩
  | error cause =>
      have hinsert : store.insertRows table (some listed) rows = .error cause := by
        simp [Store.insertRows, htable, hlisted, hrows, hstored, bind, Except.bind]
      rw [hinsert]
      refine ⟨?_, fun after hafter => by cases hafter⟩
      simp only [Connection.appendTo, Connection.takeRows, htable, hwilling, Except.map]
      exact storeRows_of_mapM_error hstored

end LiveTables.Engine
