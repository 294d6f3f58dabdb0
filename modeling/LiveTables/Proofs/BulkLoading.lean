import LiveTables.Proofs.ListedColumns
import LiveTables.Proofs.StatementText
import LiveTables.Proofs.Transactions

/-!
# Loads for listed columns

A load of few values is an insert for the columns that it lists. Of more values than one insert
takes, whole rows are appended instead, and the list plays no part in where their values go: such a
load does what the insert would do if the list names the columns of the table in their order, and
not in general.
-/

namespace LiveTables.Engine

open LiveTables.Sql LiveTables.Text

/-! ### Sound stores -/

theorem isReadable_lower_iff {name : String} : IsReadable (lower name) ↔ IsReadable name := by
  have hnull : ∀ c : Char, c.toLower = '\x00' ↔ c = '\x00' := by
    intro c
    constructor
    · intro hc
      have hword : isWordChar c = false := by rw [← Table.isWordChar_toLower, hc]; decide
      have hupper : c.isUpper = false := by
        simp only [isWordChar, Char.isAlphanum, Char.isAlpha, Bool.or_eq_false_iff] at hword
        exact hword.1.1.1
      rwa [Char.toLower_eq_of_not_isUpper (by simp [hupper])] at hc
    · rintro rfl
      decide
  rw [IsReadable, IsReadable, Table.isEmpty_lower, toList_lower, List.mem_map]
  simp [hnull]

/-- The tables of a store and their columns can be named in a text, and no table has two columns of
one name. -/
def Store.Sound (store : Store) : Prop :=
  ∀ key columns rows, store.find? key = some (.table columns rows) →
    IsReadable key ∧ (∀ column ∈ columns, IsReadable column.name) ∧
      (columns.map fun column => lower column.name).Nodup

theorem Store.sound_empty : Store.Sound .empty := by
  intro key columns rows h
  simp at h

theorem Store.Sound.erase {store : Store} (h : store.Sound) (name : String) :
    Store.Sound (store.erase name) := by
  intro key columns rows hfind
  by_cases hkey : key = name
  · rw [hkey, NameMap.find?_erase_self] at hfind
    cases hfind
  · rw [NameMap.find?_erase_of_ne _ hkey] at hfind
    exact h key columns rows hfind

theorem Store.Sound.insert {store : Store} (h : store.Sound) {name : String} {relation : Relation}
    (hrelation : ∀ columns rows, relation = .table columns rows →
      IsReadable name ∧ (∀ column ∈ columns, IsReadable column.name) ∧
        (columns.map fun column => lower column.name).Nodup) :
    Store.Sound (NameMap.insert store name relation) := by
  intro key columns rows hfind
  rcases NameMap.find?_insert_eq_some_iff.1 hfind with ⟨rfl, hsame⟩ | ⟨_, hfind⟩
  · exact hrelation columns rows hsame
  · exact h key columns rows hfind

theorem Store.exists_addRows_of_insertRows {store after : Store} {table : String}
    {listed : Option (List String)} {rows : List (List Value)}
    (h : store.insertRows table listed rows = .ok after) :
    ∃ columns present added, store.find? (lower table) = some (.table columns present) ∧
      after = store.addRows table columns present added := by
  unfold Store.insertRows at h
  cases htable : store.tableOf table with
  | error cause => simp [htable, bind, Except.bind] at h
  | ok found =>
      obtain ⟨columns, present⟩ := found
      refine ⟨columns, present, ?_⟩
      rw [← tableOf_eq_ok_iff]
      cases listed with
      | none =>
          cases hadded : rows.mapM (storeRow columns) with
          | error cause => simp [htable, hadded, bind, Except.bind] at h
          | ok added =>
              simp only [htable, hadded, bind, Except.bind, Except.ok.injEq] at h
              exact ⟨added, htable, h.symm⟩
      | some listed =>
          cases hlisted : checkListed columns listed with
          | error cause => simp [htable, hlisted, bind, Except.bind] at h
          | ok _ =>
              cases hadded : rows.mapM (arrangeRow columns listed) with
              | error cause => simp [htable, hlisted, hadded, bind, Except.bind] at h
              | ok added =>
                  simp only [htable, hlisted, hadded, bind, Except.bind, Except.ok.injEq] at h
                  exact ⟨added, htable, h.symm⟩

/-- Statements whose names can be read keep a store sound. -/
theorem Store.Sound.change {store after : Store} (h : store.Sound) {values : List Value}
    {statement : Statement} (hnames : ∀ name ∈ statement.names, IsReadable name)
    (hchange : Connection.change store values statement = .ok after) : after.Sound := by
  cases statement with
  | begin => exact Except.ok.inj hchange ▸ h
  | commit => exact Except.ok.inj hchange ▸ h
  | rollback => exact Except.ok.inj hchange ▸ h
  | dropTable lenient table =>
      simp only [Connection.change, dropTable] at hchange
      split at hchange
      · exact Except.ok.inj hchange ▸ h.erase _
      · cases hchange
      · split_ifs at hchange
        exact Except.ok.inj hchange ▸ h
  | createTable table columns =>
      simp only [Connection.change, createTable] at hchange
      split_ifs at hchange
      cases hrepeated : repeated? (columns.map (·.name)) with
      | some column => simp [hrepeated] at hchange
      | none =>
          simp only [hrepeated, Except.ok.injEq] at hchange
          rw [repeated?_eq_none_iff, List.map_map] at hrepeated
          refine hchange ▸ h.insert ?_
          rintro _ _ ⟨⟩
          refine ⟨isReadable_lower_iff.2 (hnames table (by simp [Statement.names])), ?_, hrepeated⟩
          intro column hcolumn
          exact hnames column.name (by
            simpa [Statement.names] using Or.inr ⟨column, hcolumn, rfl⟩)
  | createView view query =>
      cases query with
      | operands items =>
          simp only [Connection.change, createView, bind, Except.bind, throw, throwThe,
            MonadExceptOf.throw] at hchange
          split_ifs at hchange
          cases hrow : bindAll values (items.map (·.1)) with
          | error cause => simp [hrow] at hchange
          | ok row =>
              simp only [hrow, Except.ok.injEq] at hchange
              refine hchange ▸ h.insert ?_
              rintro _ _ ⟨⟩
      | _ => cases hchange
  | insert table listed rows =>
      simp only [Connection.change] at hchange
      split at hchange
      · obtain ⟨columns, present, added, hfind, rfl⟩ := exists_addRows_of_insertRows hchange
        refine h.insert ?_
        rintro _ _ ⟨⟩
        exact h _ columns present hfind
      · cases hchange
  | select query =>
      simp only [Connection.change] at hchange
      cases hanswer : store.answer values query with
      | error cause => simp [hanswer, Except.map] at hchange
      | ok answer =>
          simp only [hanswer, Except.map, Except.ok.injEq] at hchange
          exact hchange ▸ h

/-! ### Inserts of bound rows -/

theorem bindOperands_placeholders (values rest : List Value) :
    bindOperands (values ++ rest) (List.replicate values.length .placeholder) =
      some (values, rest) := by
  induction values with
  | nil => rfl
  | cons value values ih => simp [List.replicate_succ, bindOperands, operandValue?, ih]

theorem bindRows_placeholders {width : Nat} {rows : List (List Value)}
    (h : ∀ row ∈ rows, row.length = width) (rest : List Value) :
    bindRows (rows.flatten ++ rest)
      (List.replicate rows.length (List.replicate width .placeholder)) = some (rows, rest) := by
  induction rows with
  | nil => rfl
  | cons row rows ih =>
      have hrow := bindOperands_placeholders row (rows.flatten ++ rest)
      rw [h row List.mem_cons_self] at hrow
      have hrows := ih fun other hother => h other (List.mem_cons_of_mem _ hother)
      simp [List.replicate_succ, bindRows, hrow, hrows]

namespace Connection

theorem attempt_of_willing {refusals : Refusals} {store : Store} {values : List Value}
    {statement : Statement} (h : refusals.ofStatement store values statement = none) :
    attempt refusals store values statement = change store values statement := by
  rw [attempt, h]

/-- The engine refuses no rows for the table of a name. -/
structure TakesRows (conn : Connection) (table : String) : Prop where
  inserts : ∀ standing values listed rows,
    conn.refusals.statement standing values (.insert table listed rows) = none
  appends : ∀ standing rows, conn.refusals.append table standing rows = none

theorem takesRows_of_never {conn : Connection} (h : conn.refusals = .never) (table : String) :
    conn.TakesRows table := by
  constructor <;> intros <;> rw [h] <;> rfl

/-! ### Loads as bodies of a transaction -/

theorem actsOnContents_append (table : String) (rows : List (List Value)) :
    ActsOnContents (·.append table rows) :=
  (actsOnContents_step fun refusals store =>
    (((appendTo refusals store table rows).1.map fun _ => rows.length).mapError
      EngineError.rejected, (appendTo refusals store table rows).2)).record
    (.load table rows.length)

section Loads

variable {conn : Connection} {table : String} {listed : List String} {rows : List (List Value)}

/-- Values for placeholders in rows are put as these rows. -/
theorem change_insert {width : Nat} (hwidths : ∀ row ∈ rows, row.length = width) (store : Store)
    (table : String) (listed : Option (List String)) :
    change store rows.flatten (.insert table listed
        (List.replicate rows.length (List.replicate width .placeholder))) =
      store.insertRows table listed rows := by
  have hbound := bindRows_placeholders hwidths []
  rw [List.append_nil] at hbound
  simp only [change, hbound]

/-- An insert of bound rows is one statement, if its text can be read. -/
theorem insertBound_of_readText
    (htext : readText (insertIntoText table listed rows.length) = .ok [.insert table (some listed)
      (List.replicate rows.length (List.replicate listed.length .placeholder))]) :
    conn.insertBound table listed rows =
      match attempt conn.refusals conn.contents rows.flatten (.insert table (some listed)
        (List.replicate rows.length (List.replicate listed.length .placeholder))) with
      | .ok store => (.ok rows.length, (conn.traced [.statement .execution
          (insertIntoText table listed rows.length)]).setContents store)
      | .error cause => (.error (.rejected cause), conn.traced [.statement .execution
          (insertIntoText table listed rows.length)]) := by
  have hplain : IsPlain (.insert table (some listed)
      (List.replicate rows.length (List.replicate listed.length .placeholder))) := trivial
  simp only [insertBound, htext, record_eq_traced, run_of_isPlain _ _ hplain, refusals_traced,
    contents_traced]
  cases attempt conn.refusals conn.contents rows.flatten _ <;> rfl

theorem actsOnContents_insertBound (table : String) (hlisted : listed ≠ []) (hrows : rows ≠ []) :
    ActsOnContents (·.insertBound table listed rows) := by
  obtain ⟨height, hheight⟩ : ∃ height, rows.length = height + 1 :=
    Nat.exists_eq_succ_of_ne_zero (by simpa using hrows)
  have hstatement := readStatements_insertIntoText table hlisted height
  rw [← hheight] at hstatement
  -- whatever names are in the text, it is read as this insert or not at all
  rcases readText_cases hstatement with htext | htext
  · have hinsert := actsOnContents_change (fun refusals store => attempt refusals store
      rows.flatten (.insert table (some listed)
        (List.replicate rows.length (List.replicate listed.length .placeholder))))
      (Except.ok rows.length)
    refine (hinsert.record
      (.statement .execution (insertIntoText table listed rows.length))).of_eq fun conn => ?_
    rw [insertBound_of_readText htext]
    rfl
  · have hnothing := actsOnContents_const (α := Nat) (.error (.rejected .unreadable))
    refine (hnothing.record
      (.statement .execution (insertIntoText table listed rows.length))).of_eq fun conn => ?_
    simp only [insertBound, htext]

theorem unevenRow?_eq_none {width : Nat} (hwidths : ∀ row ∈ rows, row.length = width) :
    unevenRow? width rows = none := by
  rw [unevenRow?, List.find?_eq_none]
  intro row hrow
  simp [hwidths row.1 (List.fst_mem_of_mem_zipIdx hrow)]

theorem load_of_even (hlisted : listed ≠ []) (hrows : rows ≠ [])
    (hwidths : ∀ row ∈ rows, row.length = listed.length) :
    conn.load table listed rows =
      if boundLimit < rows.length * listed.length then conn.append table rows
      else conn.insertBound table listed rows := by
  have hrowsEmpty : rows.isEmpty = false := by simpa using hrows
  have hlistedEmpty : listed.isEmpty = false := by simpa using hlisted
  simp [load, hrowsEmpty, hlistedEmpty, unevenRow?_eq_none hwidths]

theorem actsOnContents_load (table : String) (listed : List String) (rows : List (List Value)) :
    ActsOnContents (·.load table listed rows) := by
  by_cases hrows : rows = []
  · subst hrows
    exact actsOnContents_const (.ok 0)
  have hrowsEmpty : rows.isEmpty = false := by simpa using hrows
  by_cases hlisted : listed = []
  · subst hlisted
    refine (actsOnContents_const (.error (.noColumns table))).of_eq fun conn => ?_
    simp [load, hrowsEmpty]
  have hlistedEmpty : listed.isEmpty = false := by simpa using hlisted
  simp only [load, hrowsEmpty, hlistedEmpty, Bool.false_eq_true, ↓reduceIte]
  cases unevenRow? listed.length rows with
  | some uneven => exact actsOnContents_const _
  | none =>
      dsimp only
      split_ifs
      · exact actsOnContents_append table rows
      · exact actsOnContents_insertBound table hlisted hrows

/-! ### Loads and inserts -/

/-- The outcome of a load of `count` rows that succeeds if a change of the contents does, and then
leaves what the change leaves. -/
def Performs (count : Nat) (outcome : Except EngineError Nat × Connection) :
    Except Rejection Store → Prop
  | .ok store => outcome.1 = .ok count ∧ outcome.2.contents = store
  | .error _ => ∃ cause, outcome.1 = .error cause

theorem append_performs (htakes : conn.TakesRows table)
    (hdeclares : Declares conn.contents table listed) (hdistinct : (listed.map lower).Nodup)
    (hwidths : ∀ row ∈ rows, row.length = listed.length) :
    Performs rows.length (conn.append table rows)
      (conn.contents.insertRows table (some listed) rows) := by
  obtain ⟨houtcome, hstore⟩ :=
    appendTo_eq_insertRows hdeclares hdistinct hwidths (htakes.appends _ rows)
  rw [append, record_eq_traced, refusals_traced, contents_traced]
  cases hinsert : conn.contents.insertRows table (some listed) rows with
  | ok after =>
      rw [hinsert] at houtcome
      refine ⟨?_, ?_⟩
      · simp only [houtcome, Except.map, Except.mapError]
      · rw [contents_setContents, hstore after hinsert]
  | error cause =>
      rw [hinsert] at houtcome
      exact ⟨.rejected cause, by simp only [houtcome, Except.map, Except.mapError]⟩

theorem isReadable_of_inserts {store after : Store} (hsound : store.Sound)
    (h : Inserts store table listed rows after) :
    IsReadable table ∧ ∀ name ∈ listed, IsReadable name := by
  obtain ⟨columns, present, stored, hfind, hknown, _⟩ := h
  obtain ⟨htable, hcolumns, _⟩ := hsound _ columns present hfind
  refine ⟨isReadable_lower_iff.1 htable, fun name hname => ?_⟩
  obtain ⟨column, hcolumn, hsame⟩ := hknown name hname
  rw [← isReadable_lower_iff, ← hsame, isReadable_lower_iff]
  exact hcolumns column hcolumn

theorem insertBound_performs (htakes : conn.TakesRows table) (hsound : conn.contents.Sound)
    (hlisted : listed ≠ []) (hrows : rows ≠ [])
    (hwidths : ∀ row ∈ rows, row.length = listed.length) :
    Performs rows.length (conn.insertBound table listed rows)
      (conn.contents.insertRows table (some listed) rows) := by
  obtain ⟨height, hheight⟩ : ∃ height, rows.length = height + 1 :=
    Nat.exists_eq_succ_of_ne_zero (by simpa using hrows)
  have hstatement := readStatements_insertIntoText table hlisted height
  rw [← hheight] at hstatement
  rcases readText_cases hstatement with htext | htext
  · rw [insertBound_of_readText htext, attempt_of_willing (htakes.inserts _ _ _ _),
      change_insert hwidths]
    cases conn.contents.insertRows table (some listed) rows with
    | error cause => exact ⟨_, rfl⟩
    | ok store => exact ⟨rfl, contents_setContents _ store⟩
  · cases hinsert : conn.contents.insertRows table (some listed) rows with
    | error cause =>
        simp only [insertBound, htext]
        exact ⟨_, rfl⟩
    | ok store =>
        -- the rows have been inserted, so the names are those of a sound store and can be read
        obtain ⟨htable, hnames⟩ := isReadable_of_inserts hsound (insertRows_eq_ok_iff.1 hinsert)
        rw [hheight, readText_insertIntoText htable hnames hlisted height] at htext
        cases htext

theorem load_performs (htakes : conn.TakesRows table) (hsound : conn.contents.Sound)
    (hlisted : listed ≠ []) (hrows : rows ≠ [])
    (hwidths : ∀ row ∈ rows, row.length = listed.length)
    (hpath : rows.length * listed.length ≤ boundLimit ∨ Declares conn.contents table listed) :
    Performs rows.length (conn.load table listed rows)
      (conn.contents.insertRows table (some listed) rows) := by
  rw [load_of_even hlisted hrows hwidths]
  split_ifs with hmany
  · have hdeclares := hpath.resolve_left (not_le_of_gt hmany)
    have hdistinct : (listed.map lower).Nodup := by
      obtain ⟨columns, present, hfind, hnames⟩ := hdeclares
      exact hnames ▸ (hsound _ columns present hfind).2.2
    exact append_performs htakes hdeclares hdistinct hwidths
  · exact insertBound_performs htakes hsound hlisted hrows hwidths

/-- What a transaction around a load leaves: the change, or what there was. -/
theorem Performs.transaction {body : Connection → Except EngineError Nat × Connection}
    (hbody : ActsOnContents body) {count : Nat} {changed : Except Rejection Store}
    (h : Performs count (body conn) changed) (hclosed : conn.working = none) :
    (conn.transaction body).2.contents = changed.toOption.getD conn.contents := by
  obtain ⟨_, hcommitted⟩ := transaction_of_actsOnContents hbody hclosed
  have hstill : (conn.transaction body).2.working = none := by
    have hopen := isSome_working_transaction conn body
    simpa [hclosed] using hopen
  have hafter : (body conn).2.working = none := by
    obtain ⟨outcome, changed, spans, hacts⟩ := hbody conn.refusals conn.contents
    simp [hacts conn rfl rfl, setContents, traced, hclosed]
  simp only [contents, hstill, hclosed, Option.getD_none] at hcommitted ⊢
  rw [hcommitted]
  cases changed with
  | ok store =>
      obtain ⟨hok, hstore⟩ := h
      rw [hok]
      simpa [contents, hafter, Except.toOption] using hstore
  | error cause =>
      obtain ⟨own, hown⟩ := h
      rw [hown]
      rfl

end Loads

/-- What a load promises where it agrees with the insert of the same rows: the same outcome, the
rows arranged as the list says, and the same store behind a transaction around either. -/
structure BulkLoad (conn : Connection) (table : String) (listed : List String)
    (rows : List (List Value)) : Prop where
  outcome : (conn.load table listed rows).1.toOption =
    (conn.insertBound table listed rows).1.toOption
  contents : (conn.transaction (·.load table listed rows)).2.contents =
    (conn.transaction (·.insertBound table listed rows)).2.contents
  succeeds : (∃ count, (conn.load table listed rows).1 = .ok count) ↔
    ∃ after, Inserts conn.contents table listed rows after
  stores : ∀ count, (conn.load table listed rows).1 = .ok count → count = rows.length ∧
    Inserts conn.contents table listed rows (conn.load table listed rows).2.contents ∧
    (conn.load table listed rows).2.contents = (conn.insertBound table listed rows).2.contents
  fails : ∀ cause, (conn.load table listed rows).1 = .error cause →
    (conn.transaction (·.load table listed rows)).2.contents = conn.contents

/-- A load agrees with the insert of the same rows if it has few values or its list names the
columns of the table in their order. -/
theorem bulkLoad_of_sound {conn : Connection} {table : String} (htakes : conn.TakesRows table)
    (hsound : conn.contents.Sound) {listed : List String} {rows : List (List Value)}
    (hlisted : listed ≠ []) (hrows : rows ≠ [])
    (hwidths : ∀ row ∈ rows, row.length = listed.length)
    (hpath : rows.length * listed.length ≤ boundLimit ∨ Declares conn.contents table listed) :
    BulkLoad conn table listed rows := by
  have hload := load_performs htakes hsound hlisted hrows hwidths hpath
  have hinsert := insertBound_performs htakes hsound hlisted hrows hwidths
  have hloads := actsOnContents_load table listed rows
  have hinserts := actsOnContents_insertBound table hlisted hrows
  -- inside another transaction neither is begun, and the contents are what they were
  have hleaves : ∀ {body : Connection → Except EngineError Nat × Connection},
      ActsOnContents body →
      Performs rows.length (body conn) (conn.contents.insertRows table (some listed) rows) →
        (conn.transaction body).2.contents = if conn.working.isSome then conn.contents
          else (conn.contents.insertRows table (some listed) rows).toOption.getD conn.contents := by
    intro body hbody hperforms
    split_ifs with hopen
    · rw [transaction_of_open hopen]
    · exact hperforms.transaction hbody (by simpa using hopen)
  have hcontents := hleaves hloads hload
  have hsame := hcontents.trans (hleaves hinserts hinsert).symm
  cases hchange : conn.contents.insertRows table (some listed) rows with
  | ok store =>
      rw [hchange] at hload hinsert
      have harranged := insertRows_eq_ok_iff.1 hchange
      refine ⟨by rw [hload.1, hinsert.1], hsame, iff_of_true ⟨_, hload.1⟩
        ⟨store, harranged⟩, ?_, ?_⟩
      · intro count hcount
        rw [hload.1, Except.ok.injEq] at hcount
        exact ⟨hcount.symm, hload.2.symm ▸ harranged, hload.2.trans hinsert.2.symm⟩
      · intro cause hcause
        rw [hload.1] at hcause
        cases hcause
  | error rejection =>
      rw [hchange] at hload hinsert hcontents
      obtain ⟨cause, hcause⟩ := hload
      obtain ⟨other, hother⟩ := hinsert
      refine ⟨by rw [hcause, hother]; rfl, hsame, iff_of_false ?_ ?_, ?_, ?_⟩
      · rintro ⟨count, hcount⟩
        rw [hcause] at hcount
        cases hcount
      · rintro ⟨after, harranged⟩
        rw [insertRows_eq_ok_iff.2 harranged] at hchange
        cases hchange
      · intro count hcount
        rw [hcause] at hcount
        cases hcount
      · intro _ _
        rw [hcontents]
        simp [Except.toOption]

/-! ### A table of two columns -/

def twoColumns : List ColumnDef := [⟨"a", .bigint, false⟩, ⟨"b", .bigint, false⟩]

def withTwoColumns : Connection :=
  { inMemory with committed := NameMap.empty.insert "t" (.table twoColumns []) }

def equalRows (height : Nat) (values : List Value) : List (List Value) :=
  List.replicate height values

theorem find?_withTwoColumns : withTwoColumns.contents.find? "t" = some (.table twoColumns []) :=
  NameMap.find?_insert_self _ _ _

theorem sound_withTwoColumns : withTwoColumns.contents.Sound := by
  refine Store.sound_empty.insert ?_
  rintro _ _ ⟨⟩
  simp only [IsReadable]
  decide

section EqualRows

variable {height : Nat} {values stored : List Value}

theorem equalRows_ne_nil (hheight : 0 < height) : equalRows height values ≠ [] := by
  rw [equalRows, ← List.length_pos_iff, List.length_replicate]
  exact hheight

theorem length_of_mem_equalRows : ∀ row ∈ equalRows height values, row.length = values.length := by
  intro row hrow
  rw [List.eq_of_mem_replicate hrow]

theorem mapM_equalRows {f : List Value → Except Rejection (List Value)}
    (h : f values = .ok stored) :
    (equalRows height values).mapM f = .ok (equalRows height stored) := by
  refine mapM_eq_ok_iff.2 ?_
  unfold equalRows
  induction height with
  | zero => exact .nil
  | succ height ih => exact .cons h ih

end EqualRows

theorem bulkLoad_of_sound_many_rows :
    BulkLoad withTwoColumns "T" ["A", "b"] (equalRows 500 [.integer 1, .integer 2]) :=
  bulkLoad_of_sound (takesRows_of_never rfl "T") sound_withTwoColumns (List.cons_ne_nil _ _)
    (equalRows_ne_nil (by decide)) length_of_mem_equalRows
    (Or.inr ⟨twoColumns, [], find?_withTwoColumns, by decide⟩)

theorem insertRows_withTwoColumns {listed : List String} {values stored : List Value}
    (hlisted : checkListed twoColumns listed = .ok ())
    (hrow : arrangeRow twoColumns listed values = .ok stored) (height : Nat) :
    withTwoColumns.contents.insertRows "t" (some listed) (equalRows height values) =
      .ok (withTwoColumns.contents.addRows "t" twoColumns [] (equalRows height stored)) := by
  have htable : withTwoColumns.contents.tableOf "t" = .ok (twoColumns, []) :=
    tableOf_eq_ok_iff.2 find?_withTwoColumns
  have hrows := @mapM_equalRows height _ _ _ hrow
  simp [Store.insertRows, htable, hlisted, hrows, bind, Except.bind]

/-- Listed the other way round, the values of many rows end up in each other's columns. -/
theorem load_reversed {height : Nat} (hmany : boundLimit < height * 2) :
    (withTwoColumns.transaction
        (·.load "t" ["b", "a"] (equalRows height [.integer 1, .integer 2]))).2.contents =
      withTwoColumns.contents.addRows "t" twoColumns []
        (equalRows height [.integer 1, .integer 2]) ∧
    (withTwoColumns.transaction
        (·.insertBound "t" ["b", "a"] (equalRows height [.integer 1, .integer 2]))).2.contents =
      withTwoColumns.contents.addRows "t" twoColumns []
        (equalRows height [.integer 2, .integer 1]) := by
  have htakes := @takesRows_of_never withTwoColumns rfl "t"
  have hlisted : ["b", "a"] ≠ [] := List.cons_ne_nil _ _
  have hrows : equalRows height [Value.integer 1, .integer 2] ≠ [] :=
    equalRows_ne_nil (by omega)
  have hwidths : ∀ row ∈ equalRows height [Value.integer 1, .integer 2],
      row.length = ["b", "a"].length := length_of_mem_equalRows
  constructor
  · -- the append does what the insert would do with the columns in their own order
    have hdeclares : Declares withTwoColumns.contents "t" ["a", "b"] :=
      ⟨twoColumns, [], find?_withTwoColumns, by decide⟩
    have happend := append_performs htakes hdeclares (by decide) hwidths
    have hload := @load_of_even withTwoColumns "t" _ _ hlisted hrows hwidths
    rw [if_pos (by simpa [equalRows] using hmany)] at hload
    rw [insertRows_withTwoColumns rfl rfl, ← hload] at happend
    exact happend.transaction (actsOnContents_load _ _ _) rfl
  · have hinsert := insertBound_performs htakes sound_withTwoColumns hlisted hrows hwidths
    rw [insertRows_withTwoColumns rfl rfl] at hinsert
    exact hinsert.transaction (actsOnContents_insertBound _ hlisted hrows) rfl

theorem not_bulkLoad_reversed :
    ¬ BulkLoad withTwoColumns "t" ["b", "a"] (equalRows 500 [.integer 1, .integer 2]) := by
  intro h
  obtain ⟨hload, hinsert⟩ := @load_reversed 500 (by decide)
  have hsame := congrArg (NameMap.find? · "t") (hload.symm.trans (h.contents.trans hinsert))
  have hfind : ∀ rows, (withTwoColumns.contents.addRows "t" twoColumns [] rows).find? "t" =
      some (.table twoColumns rows) := fun rows => NameMap.find?_insert_self _ _ _
  simp only [hfind, Option.some.injEq, Relation.table.injEq, true_and] at hsame
  have hvalues := (List.replicate_inj.1 hsame).2.resolve_left (by decide)
  exact absurd hvalues (by decide)

end Connection

end LiveTables.Engine
