import LiveTables.Cache.Basic
import LiveTables.Proofs.BulkLoading
import LiveTables.Proofs.StoredRows

/-!
# Loading a table

A table is put in the place of the one of its name as a whole, its rows included, or the store stays
as it was. What can keep it out is a transaction that is open already, a view of its name, and what
the engine refuses: the rows that have been typed for a table always fit it. The refusal can come
when the table that stands there has been dropped and some of the rows are in the new one, and then
all of this is undone.
-/

namespace LiveTables

open LiveTables.Engine LiveTables.Sql LiveTables.Table LiveTables.Text

namespace Cache

/-- What the trace shows of a table that is dropped and made. -/
def recreateSpans (table : Descriptor) : List Span :=
  [.statement .batch table.dropText, .statement .batch table.createText]

def loadSpans (table : Descriptor) (rows : List (List Value)) : List Span :=
  if rows.isEmpty then []
  else if Connection.boundLimit < rows.length * table.columnNames.length then
    [.load table.name rows.length]
  else [.statement .execution (insertIntoText table.name table.columnNames rows.length)]

/-- What the trace shows of a table that is made anew and filled. -/
def fillSpans (table : Descriptor) (rows : List (List Value)) : List Span :=
  recreateSpans table ++ loadSpans table rows

@[simp]
theorem fillSpans_nil (table : Descriptor) : fillSpans table [] = recreateSpans table := by
  simp [fillSpans, loadSpans]

theorem readText_dropText_of_positional {table : Descriptor} (h : table.Positional) :
    Connection.readText table.dropText = .ok [.dropTable true table.name] :=
  readText_dropText h.readable

theorem readText_createText_of_positional {table : Descriptor} (h : table.Positional) :
    Connection.readText table.createText = .ok [.createTable table.name table.columnDefs] := by
  unfold Descriptor.createText
  rw [readText_createText h.readable]
  · simp [Descriptor.columnDefs, Function.comp_def]
  · intro column hcolumn
    obtain ⟨original, horiginal, rfl⟩ := List.mem_map.1 hcolumn
    exact h.isReadable_columnName (List.mem_map_of_mem horiginal)
  · simpa using h.nonempty

/-! ### What keeps a table out -/

/-- Why what stands under a name is not dropped to make place for a table, if it is not. -/
def dropRefusal? (refusals : Refusals) (standing : Option Relation) (name : String) :
    Option Rejection :=
  (refusals.statement standing [] (.dropTable true name)).or <| match standing with
    | some (.view ..) => some (.notATable name)
    | _ => none

def createRefusal? (refusals : Refusals) (table : Descriptor) : Option Rejection :=
  refusals.statement none [] (.createTable table.name table.columnDefs)

/-- Why rows are not loaded into their table when it has been made, if they are not. -/
def loadRefusal? (refusals : Refusals) (table : Descriptor) (rows : List (List Value)) :
    Option Rejection :=
  if rows.isEmpty then none
  else if Connection.boundLimit < rows.length * table.columnNames.length then
    (refusals.append table.name (some (.table table.columnDefs [])) rows).map (·.2)
  else refusals.statement (some (.table table.columnDefs [])) rows.flatten
    (.insert table.name (some table.columnNames)
      (List.replicate rows.length (List.replicate table.columnNames.length .placeholder)))

/-- Why a table with its rows is not put in the place of what stands under its name, and what the
trace shows of it by then. -/
def objection? (refusals : Refusals) (standing : Option Relation) (table : Descriptor)
    (rows : List (List Value)) : Option (Rejection × List Span) :=
  match dropRefusal? refusals standing table.name with
  | some cause => some (cause, [.statement .batch table.dropText])
  | none => match createRefusal? refusals table with
    | some cause => some (cause, recreateSpans table)
    | none => (loadRefusal? refusals table rows).map (·, fillSpans table rows)

/-- Inside a transaction the body puts a table with its rows in the place of what has its name, or
fails, and may then leave anything behind. -/
def PutsInPlace {α : Type} (table : Descriptor) (rows : List (List Value)) (value : α)
    (body : Connection → Except EngineError α × Connection) : Prop :=
  ∀ (conn : Connection) (store : Store),
    match objection? conn.refusals (store.find? (lower table.name)) table rows with
    | some (cause, spans) => ∃ left, body (conn.within store) =
        (.error (.rejected cause), (conn.traced spans).within left)
    | none => body (conn.within store) = (.ok value, (conn.traced (fillSpans table rows)).within
        (store.insert (lower table.name) (.table table.columnDefs rows)))

/-! ### Dropping and making -/

section Recreate

variable {table : Descriptor} {store : Store}

theorem attempt_dropTable_of_some {refusals : Refusals} {name : String} {cause : Rejection}
    (h : dropRefusal? refusals (store.find? (lower name)) name = some cause) :
    Connection.attempt refusals store [] (.dropTable true name) = .error cause := by
  simp only [dropRefusal?] at h
  simp only [Connection.attempt, Refusals.ofStatement, Statement.target?, Option.bind_some]
  cases hrefused : refusals.statement (store.find? (lower name)) [] (.dropTable true name) with
  | some own =>
      rw [hrefused, Option.some_or, Option.some.injEq] at h
      rw [h]
  | none =>
      rw [hrefused, Option.none_or] at h
      simp only [Connection.change, Store.dropTable]
      split at h
      · rename_i hview
        rw [Option.some.injEq] at h
        rw [hview, ← h]
      · cases h

theorem attempt_dropTable_of_none {refusals : Refusals} {name : String}
    (h : dropRefusal? refusals (store.find? (lower name)) name = none) :
    ∃ dropped : Store,
      Connection.attempt refusals store [] (.dropTable true name) = .ok dropped ∧
      dropped.find? (lower name) = none ∧
      ∀ relation, dropped.insert (lower name) relation = store.insert (lower name) relation := by
  obtain ⟨hstatement, hplace⟩ := Option.or_eq_none_iff.1 h
  have hwilling : refusals.ofStatement store [] (.dropTable true name) = none := hstatement
  rw [Connection.attempt_of_willing hwilling]
  simp only [Connection.change, Store.dropTable]
  cases hfind : store.find? (lower name) with
  | none => exact ⟨store, by simp, hfind, fun relation => rfl⟩
  | some relation =>
      cases relation with
      | table =>
          exact ⟨store.erase (lower name), rfl, by simp, fun relation =>
            NameMap.insert_erase _ _ _⟩
      | view => simp [hfind] at hplace

theorem createTable_of_free (htable : table.Positional) {dropped : Store}
    (hfree : dropped.find? (lower table.name) = none) :
    dropped.createTable table.name table.columnDefs =
      .ok (dropped.insert (lower table.name) (.table table.columnDefs [])) := by
  have hrepeated : repeated? (table.columnDefs.map (·.name)) = none := by
    rw [Descriptor.names_columnDefs]
    exact repeated?_eq_none_iff.2 htable.nodup_names
  simp [Store.createTable, NameMap.contains_eq_false_iff.2 hfree, hrepeated]

theorem recreate_putsInPlace (htable : table.WellFormed) :
    PutsInPlace table [] () (recreate table) := by
  intro conn store
  have hdropText := readText_dropText_of_positional htable.positional
  have hcreateText := readText_createText_of_positional htable.positional
  rw [objection?]
  cases hdrop : dropRefusal? conn.refusals (store.find? (lower table.name)) table.name with
  | some cause =>
      refine ⟨store, ?_⟩
      rw [recreate, Connection.runBatch_of_error _ hdropText trivial
        (attempt_dropTable_of_some hdrop), Connection.within_traced]
  | none =>
      obtain ⟨dropped, hdropped, hfree, hinsert⟩ := attempt_dropTable_of_none hdrop
      have hrecreate : recreate table (conn.within store) =
          ((conn.traced [.statement .batch table.dropText]).within dropped).runBatch
            table.createText := by
        rw [recreate, Connection.runBatch_of_ok (conn.within store) hdropText trivial hdropped]
        rfl
      have hstanding : conn.refusals.ofStatement dropped []
          (.createTable table.name table.columnDefs) = createRefusal? conn.refusals table := by
        simp only [Refusals.ofStatement, Statement.target?, Option.bind_some, hfree, createRefusal?]
      cases hcreate : createRefusal? conn.refusals table with
      | some cause =>
          -- the table that stood there is gone by now
          refine ⟨dropped, ?_⟩
          have hattempt : Connection.attempt conn.refusals dropped []
              (.createTable table.name table.columnDefs) = .error cause := by
            rw [Connection.attempt, hstanding, hcreate]
          rw [hrecreate, Connection.runBatch_of_error _ hcreateText trivial hattempt,
            Connection.within_traced, Connection.traced_traced]
          rfl
      | none =>
          have hattempt : Connection.attempt conn.refusals dropped []
              (.createTable table.name table.columnDefs) =
                .ok (store.insert (lower table.name) (.table table.columnDefs [])) := by
            rw [Connection.attempt_of_willing (hstanding.trans hcreate), ← hinsert]
            exact createTable_of_free htable.positional hfree
          have hload : loadRefusal? conn.refusals table [] = none := rfl
          simp only [hload, Option.map_none]
          rw [hrecreate, Connection.runBatch_of_ok _ hcreateText trivial hattempt,
            Connection.within_traced, Connection.traced_traced, Connection.within_setContents]
          rfl

end Recreate

/-! ### Loading rows -/

theorem length_of_storeRow_columnDefs {table : Descriptor} {values stored : List Value}
    (h : storeRow table.columnDefs values = .ok stored) :
    values.length = table.columnNames.length := by
  rw [length_of_storeRow h]
  simp [Descriptor.columnDefs, Descriptor.columnNames]

theorem loadRefusal?_of_takesRows {table : Descriptor} {conn : Connection}
    (h : conn.TakesRows table.name) (rows : List (List Value)) :
    loadRefusal? conn.refusals table rows = none := by
  unfold loadRefusal?
  split_ifs
  · rfl
  · rw [h.appends, Option.map_none]
  · exact h.inserts _ _ _ _

section Load

variable {table : Descriptor} {store : Store} {rows : List (List Value)}

/-- Of typed rows an append takes all, or those in front of the row that the engine refuses. -/
theorem appendTo_typed_rows (refusals : Refusals)
    (hfind : store.find? (lower table.name) = some (.table table.columnDefs []))
    (hrows : ∀ values ∈ rows, storeRow table.columnDefs values = .ok values) :
    Connection.appendTo refusals store table.name rows =
      match refusals.append table.name (some (.table table.columnDefs [])) rows with
      | none => (.ok (), store.insert (lower table.name) (.table table.columnDefs rows))
      | some (count, cause) => (.error cause,
          store.insert (lower table.name) (.table table.columnDefs (rows.take count))) := by
  have hstored : ∀ taken : List (List Value), (∀ values ∈ taken, values ∈ rows) →
      Connection.storeRows table.columnDefs taken = (taken, .ok ()) := fun taken htaken =>
    storeRows_of_mapM_ok (mapM_eq_ok_iff.2 (List.forall₂_same.2 fun values hvalues =>
      hrows values (htaken values hvalues)))
  simp only [Connection.appendTo, tableOf_eq_ok_iff.2 hfind, hfind, Connection.takeRows]
  cases refusals.append table.name (some (.table table.columnDefs [])) rows with
  | none => simp [hstored rows fun _ h => h, Store.addRows]
  | some refused =>
      simp [hstored (rows.take refused.1) fun _ => List.mem_of_mem_take, Store.addRows, Except.bind]

theorem insertRows_typed_rows (htable : table.Positional)
    (hfind : store.find? (lower table.name) = some (.table table.columnDefs []))
    (hrows : ∀ values ∈ rows, storeRow table.columnDefs values = .ok values) :
    store.insertRows table.name (some table.columnNames) rows =
      .ok (store.insert (lower table.name) (.table table.columnDefs rows)) := by
  have hdeclares : Declares store table.name table.columnNames :=
    ⟨table.columnDefs, [], hfind, by simp [← Descriptor.names_columnDefs]⟩
  -- an append that nothing stops takes the same rows
  obtain ⟨houtcome, hstore⟩ := @appendTo_eq_insertRows .never _ _ _ hdeclares htable.nodup_names
    rows (fun row hrow => length_of_storeRow_columnDefs (hrows row hrow)) rfl
  have happend : Connection.appendTo .never store table.name rows =
      (.ok (), store.insert (lower table.name) (.table table.columnDefs rows)) :=
    appendTo_typed_rows .never hfind hrows
  rw [happend] at houtcome hstore
  cases hinsert : store.insertRows table.name (some table.columnNames) rows with
  | ok after => rw [← hstore after hinsert]
  | error cause =>
      rw [hinsert] at houtcome
      cases houtcome

/-- Typed rows are loaded into the empty table that was made for them, on either path, or the engine
refuses them. -/
theorem load_typed_rows (htable : table.Positional) (conn : Connection)
    (hfind : conn.contents.find? (lower table.name) = some (.table table.columnDefs []))
    (hrows : ∀ values ∈ rows, storeRow table.columnDefs values = .ok values) :
    match loadRefusal? conn.refusals table rows with
    | none => conn.load table.name table.columnNames rows =
        (.ok rows.length, (conn.traced (loadSpans table rows)).setContents
          (conn.contents.insert (lower table.name) (.table table.columnDefs rows)))
    | some cause => ∃ left, conn.load table.name table.columnNames rows =
        (.error (.rejected cause), (conn.traced (loadSpans table rows)).setContents left) := by
  by_cases hne : rows = []
  · subst hne
    change conn.load table.name table.columnNames [] = (.ok 0, _)
    rw [NameMap.insert_eq_self hfind]
    simp [Connection.load, loadSpans, Connection.setContents_contents]
  have hrowsEmpty : rows.isEmpty = false := by simpa using hne
  have hwidths : ∀ row ∈ rows, row.length = table.columnNames.length := fun row hrow =>
    length_of_storeRow_columnDefs (hrows row hrow)
  simp only [loadRefusal?, loadSpans, hrowsEmpty, Bool.false_eq_true, ↓reduceIte,
    Connection.load_of_even htable.columnNames_ne_nil hne hwidths]
  split_ifs with hmany
  · rw [Connection.append, Connection.record_eq_traced]
    simp only [Connection.contents_traced, Connection.refusals_traced,
      appendTo_typed_rows conn.refusals hfind hrows]
    cases conn.refusals.append table.name (some (.table table.columnDefs [])) rows with
    | none => rfl
    | some refused => exact ⟨_, rfl⟩
  · obtain ⟨height, hheight⟩ : ∃ height, rows.length = height + 1 :=
      Nat.exists_eq_succ_of_ne_zero (by simpa using hne)
    have htext := readText_insertIntoText htable.readable (fun _ => htable.isReadable_columnName)
      htable.columnNames_ne_nil height
    rw [← hheight] at htext
    rw [Connection.insertBound_of_readText htext, Connection.attempt,
      Connection.change_insert hwidths, insertRows_typed_rows htable hfind hrows]
    simp only [Refusals.ofStatement, Statement.target?, Option.bind_some, hfind]
    split
    · rename_i hwilling
      rw [hwilling]
    · rename_i cause hrefused
      rw [hrefused]
      -- an insert takes all rows or none
      exact ⟨conn.contents,
        by rw [← Connection.setContents_traced, Connection.setContents_contents]⟩

end Load

/-! ### Filling -/

theorem batch_eq_ok_iff {table : Descriptor} {rows : List (Except Failure Record.Row)}
    {batch : Batch} : table.batch rows = .ok batch ↔
      ∃ typed, table.typedRows rows = .ok typed ∧
        batch = ⟨table.name, table.columnNames, typed⟩ := by
  unfold Descriptor.batch
  cases table.typedRows rows <;> simp [Except.map, eq_comm]

theorem fill_putsInPlace {table : Descriptor} (htable : table.WellFormed)
    {rows : List (Except Failure Record.Row)} {batch : Batch}
    (hbatch : table.batch rows = .ok batch) :
    PutsInPlace table batch.rows batch.rows.length (fill table batch) := by
  intro conn store
  obtain ⟨typed, htyped, rfl⟩ := batch_eq_ok_iff.1 hbatch
  have hrecreate := recreate_putsInPlace htable conn store
  have hnone : loadRefusal? conn.refusals table [] = none := rfl
  rw [objection?] at hrecreate ⊢
  cases hdrop : dropRefusal? conn.refusals (store.find? (lower table.name)) table.name with
  | some cause =>
      simp only [hdrop] at hrecreate
      obtain ⟨left, hleft⟩ := hrecreate
      exact ⟨left, by rw [fill, hleft]⟩
  | none =>
      cases hcreate : createRefusal? conn.refusals table with
      | some cause =>
          simp only [hdrop, hcreate] at hrecreate
          obtain ⟨left, hleft⟩ := hrecreate
          exact ⟨left, by rw [fill, hleft]⟩
      | none =>
          simp only [hdrop, hcreate, hnone, Option.map_none] at hrecreate
          -- the rows meet the empty table that has just been made
          have hempty : ((conn.traced (fillSpans table [])).within
              (store.insert (lower table.name) (.table table.columnDefs []))).contents.find?
                (lower table.name) = some (.table table.columnDefs []) :=
            NameMap.find?_insert_self _ _ _
          have hload := load_typed_rows htable.positional _ hempty
            (Descriptor.storeRow_of_mem_typedRows htyped)
          rw [Connection.refusals_within, Connection.refusals_traced, Connection.contents_within,
            NameMap.insert_insert] at hload
          simp only [Connection.within_traced, Connection.traced_traced,
            Connection.within_setContents, fillSpans, List.append_assoc] at hload hrecreate ⊢
          cases hrows : loadRefusal? conn.refusals table typed with
          | some cause =>
              rw [hrows] at hload
              obtain ⟨left, hleft⟩ := hload
              refine ⟨left, ?_⟩
              simp only [fill, hrecreate, Batch.execute, hleft]
              rfl
          | none =>
              rw [hrows] at hload
              simp only [Option.map_none, fill, hrecreate, Batch.execute, hload]
              rfl

/-! ### Loading inside a transaction of its own -/

/-- Why a connection does not take a table with its rows, and what the trace shows of it. -/
def refusal? (conn : Connection) (table : Descriptor) (rows : List (List Value)) :
    Option (EngineError × List Span) :=
  if conn.working.isSome then some (.rejected .transactionOpen, [])
  else (objection? conn.refusals (conn.committed.find? (lower table.name)) table rows).map
    fun objection => (.rejected objection.1, objection.2)

/-- The connection with a table and its rows in the place of whatever had its name. -/
def withTable (conn : Connection) (table : Descriptor) (rows : List (List Value)) : Connection :=
  { conn with committed := conn.committed.insert (lower table.name) (.table table.columnDefs rows) }

/-- Whatever a refused body has left behind is undone. -/
theorem transaction_of_putsInPlace {α : Type} {table : Descriptor} {rows : List (List Value)}
    {value : α} {body : Connection → Except EngineError α × Connection}
    (hbody : PutsInPlace table rows value body) (conn : Connection) :
    conn.transaction body = match refusal? conn table rows with
      | some (cause, spans) => (.error cause, conn.traced spans)
      | none => (.ok value, (withTable conn table rows).traced (fillSpans table rows)) := by
  cases hworking : conn.working with
  | some store =>
      have hopen : conn.working.isSome = true := by simp [hworking]
      simp [Connection.transaction_of_open hopen, refusal?, hopen]
  | none =>
      have hacts := hbody conn conn.committed
      have hrefusal : refusal? conn table rows =
          (objection? conn.refusals (conn.committed.find? (lower table.name)) table rows).map
            fun objection => (.rejected objection.1, objection.2) := by
        simp [refusal?, hworking]
      rw [hrefusal]
      cases hobjection :
          objection? conn.refusals (conn.committed.find? (lower table.name)) table rows with
      | some objection =>
          rw [hobjection] at hacts
          obtain ⟨left, hleft⟩ := hacts
          rw [Connection.transaction_of_error hworking hleft rfl]
          simp [Connection.within, Connection.traced, hworking]
      | none =>
          rw [hobjection] at hacts
          rw [Connection.transaction_of_ok hworking hacts rfl]
          simp [Connection.within, Connection.traced, withTable, hworking]

theorem transaction_recreate {table : Descriptor} (htable : table.WellFormed) (conn : Connection) :
    conn.transaction (recreate table) = match refusal? conn table [] with
      | some (cause, spans) => (.error cause, conn.traced spans)
      | none => (.ok (), (withTable conn table []).traced (recreateSpans table)) := by
  rw [transaction_of_putsInPlace (recreate_putsInPlace htable) conn, fillSpans_nil]

theorem transaction_fill {table : Descriptor} (htable : table.WellFormed) (conn : Connection)
    {rows : List (Except Failure Record.Row)} {batch : Batch}
    (hbatch : table.batch rows = .ok batch) :
    conn.transaction (fill table batch) = match refusal? conn table batch.rows with
      | some (cause, spans) => (.error cause, conn.traced spans)
      | none => (.ok batch.rows.length,
          (withTable conn table batch.rows).traced (fillSpans table batch.rows)) :=
  transaction_of_putsInPlace (fill_putsInPlace htable hbatch) conn

end Cache

end LiveTables
