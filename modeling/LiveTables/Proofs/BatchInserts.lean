import LiveTables.Proofs.TableLoading

/-!
# Two ways to load a batch

A batch is written as one insert with a placeholder for every value, or it is loaded in bulk. In a
table that has just been made both put the same rows: the placeholders stand in rows as the values
of the batch do, so from left to right each value meets its own.
-/

namespace LiveTables

open LiveTables.Engine LiveTables.Sql LiveTables.Table LiveTables.Text

namespace Sql

/-! ### The text of an insert by position -/

theorem readsAs_insertText (table : String) (width height : Nat) :
    ReadsAs (insertText table width height).toList
      ([.word "INSERT", .word "INTO", .quoted table, .word "VALUES"] ++
        List.intercalate [Token.symbol ','] (List.replicate height (placeholderTokens width))) := by
  have hkeyword : isBareName "VALUES".toList = true := by decide
  have hvalues := (readsAs_placeholders width height).keyword hkeyword
  have htable := (readsAs_quote table).append hvalues.space
    (breaks_cons (by decide) (by decide) _)
  have htext : insertText table width height = "INSERT" ++ (" " ++ ("INTO" ++ (" " ++
      (quote table ++ (" " ++ ("VALUES" ++ (" " ++ placeholders width height))))))) := by
    unfold insertText
    simp [← String.append_assoc]
  have hspace : " ".toList = [' '] := by decide
  rw [htext]
  apply ReadsAs.keyword _ (by decide)
  apply ReadsAs.keyword _ (by decide)
  rw [String.toList_append, String.toList_append, hspace]
  exact htable

theorem readStatements_insertText (table : String) (width height : Nat) :
    readStatements (insertText table (width + 1) (height + 1)) =
      some [.insert table none
        (List.replicate (height + 1) (List.replicate (width + 1) .placeholder))] := by
  refine readStatements_of_readsAs (readsAs_insertText table (width + 1) (height + 1)) (by simp)
    ?_ ?_
  · rintro token htoken rfl
    rcases List.mem_append.1 htoken with hkeyword | hvalues
    · simp at hkeyword
    · exact semicolon_notMem_placeholderTokens _ _ hvalues
  · have hinsert : lower "INSERT" = "insert" := by decide
    have hinto : lower "INTO" = "into" := by decide
    have hvalues : lower "VALUES" = "values" := by decide
    have hrows := readRows_placeholderTokens width height
    rw [intercalate_placeholderTokens]
    simp [readStatement, readTransaction, readSelect, readInsert, hrows, afterKeywords?,
      Token.isKeyword, Token.name?, hinsert, hinto, hvalues]

theorem readText_insertText {table : String} (htable : IsReadable table) (width height : Nat) :
    Connection.readText (insertText table (width + 1) (height + 1)) =
      .ok [.insert table none
        (List.replicate (height + 1) (List.replicate (width + 1) .placeholder))] := by
  refine readText_of_readStatements (readStatements_insertText table width height) ?_ ?_
  · unfold insertText
    simp only [String.toList_append, List.mem_append, not_or]
    exact ⟨⟨⟨by decide, null_notMem_quote htable.2⟩, by decide⟩, null_notMem_placeholders _ _⟩
  · intro name hname
    obtain rfl : name = table := by simpa [Statement.names] using hname
    exact htable.1

/-! ### Counting placeholders -/

theorem count_intercalate_replicate {c : Char} {separator : List Char} (hc : c ∉ separator)
    (part : List Char) (count : Nat) :
    (List.intercalate separator (List.replicate count part)).count c = count * part.count c := by
  induction count with
  | zero => simp
  | succ count ih =>
      cases count with
      | zero => simp
      | succ count =>
          rw [List.replicate_succ, List.replicate_succ, List.intercalate_cons_cons,
            ← List.replicate_succ, List.count_append, List.count_append, ih,
            List.count_eq_zero_of_not_mem hc]
          ring

theorem count_placeholders (width height : Nat) :
    (placeholders width height).toList.count '?' = height * width := by
  have hcomma : '?' ∉ ", ".toList := by decide
  have hrow : (placeholderRow width).toList.count '?' = width := by
    have hopen : "(".toList.count '?' = 0 := by decide
    have hmark : "?".toList.count '?' = 1 := by decide
    have hclose : ")".toList.count '?' = 0 := by decide
    rw [placeholderRow, String.toList_append, String.toList_append, List.count_append,
      List.count_append, String.toList_intercalate, List.map_replicate,
      count_intercalate_replicate hcomma, hopen, hmark, hclose]
    omega
  rw [placeholders, String.toList_intercalate, List.map_replicate,
    count_intercalate_replicate hcomma, hrow]

theorem count_insertText (table : String) (width height : Nat) :
    (insertText table width height).toList.count '?' =
      (quote table).toList.count '?' + height * width := by
  have hinsert : "INSERT INTO ".toList.count '?' = 0 := by decide
  have hvalues : " VALUES ".toList.count '?' = 0 := by decide
  rw [insertText, String.toList_append, String.toList_append, String.toList_append,
    List.count_append, List.count_append, List.count_append, hinsert, hvalues, count_placeholders]
  omega

end Sql

namespace Engine.Connection

/-! ### Executing a text with values -/

/-- How many rows a statement inserts. -/
def insertedRows : Statement → Nat
  | .insert _ _ rows => rows.length
  | _ => 0

/-- Execute a text that must be one statement, with `values` for its placeholders from left to
right. Gives the number of rows that it inserts. -/
def executeBound (conn : Connection) (text : String) (values : List Value) :
    Except EngineError Nat × Connection :=
  let conn := conn.record (.statement .execution text)
  match readText text with
  | .ok [statement] => match conn.run values statement with
    | .ok conn => (.ok (insertedRows statement), conn)
    | .error cause => (.error (.rejected cause), conn)
  | .ok _ => (.error (.rejected .unreadable), conn)
  | .error cause => (.error (.rejected cause), conn)

section Execute

variable {table : String} {columns : List String} {rows : List (List Value)}

/-- A bulk insert is the execution of its text with its values. -/
theorem insertBound_eq_executeBound (conn : Connection) (table : String) (hcolumns : columns ≠ [])
    (hrows : rows ≠ []) : conn.insertBound table columns rows =
      conn.executeBound (insertIntoText table columns rows.length) rows.flatten := by
  obtain ⟨height, hheight⟩ : ∃ height, rows.length = height + 1 :=
    Nat.exists_eq_succ_of_ne_zero (by simpa using hrows)
  have hstatement := readStatements_insertIntoText table hcolumns height
  rw [← hheight] at hstatement
  set text := insertIntoText table columns rows.length with htext_eq
  set statement := Statement.insert table (some columns)
    (List.replicate rows.length (List.replicate columns.length .placeholder))
  have hinserted : insertedRows statement = rows.length := List.length_replicate
  rcases readText_cases hstatement with htext | htext
  · cases hrun : (conn.record (.statement .execution text)).run rows.flatten statement with
    | ok after => simp only [insertBound, executeBound, ← htext_eq, htext, hrun, hinserted]
    | error cause => simp only [insertBound, executeBound, ← htext_eq, htext, hrun]
  · simp only [insertBound, executeBound, ← htext_eq, htext]

/-- A positional insert with a placeholder for every value puts the values as whole rows. -/
theorem executeBound_insertText {conn : Connection} (htakes : conn.TakesRows table)
    (htable : IsReadable table) {width : Nat} (hwidth : width ≠ 0)
    (hrows : rows ≠ []) (hwidths : ∀ row ∈ rows, row.length = width) :
    conn.executeBound (insertText table width rows.length) rows.flatten =
      match conn.contents.insertRows table none rows with
      | .ok store => (.ok rows.length, (conn.traced [.statement .execution
          (insertText table width rows.length)]).setContents store)
      | .error cause => (.error (.rejected cause), conn.traced [.statement .execution
          (insertText table width rows.length)]) := by
  obtain ⟨columns, rfl⟩ := Nat.exists_eq_succ_of_ne_zero hwidth
  obtain ⟨height, hheight⟩ : ∃ height, rows.length = height + 1 :=
    Nat.exists_eq_succ_of_ne_zero (by simpa using hrows)
  have htext := readText_insertText htable columns height
  rw [← hheight] at htext
  have hplain : IsPlain (.insert table none
      (List.replicate rows.length (List.replicate (columns + 1) .placeholder))) := trivial
  rw [executeBound, record_eq_traced]
  simp only [htext, run_of_isPlain _ _ hplain, insertedRows, List.length_replicate,
    refusals_traced, contents_traced]
  rw [attempt_of_willing (htakes.inserts _ _ _ _), change_insert hwidths]
  cases conn.contents.insertRows table none rows <;> rfl

end Execute

theorem isReadable_of_runBatch_createText {table : Descriptor} (hne : table.columns ≠ [])
    {conn made : Connection} (hmade : conn.runBatch table.createText = (.ok (), made)) :
    IsReadable table.name := by
  cases htext : readText table.createText with
  | error cause => simp [runBatch, htext] at hmade
  | ok statements => exact isReadable_of_readText_createText (by simpa using hne) htext

theorem runBatch_eq_ok_iff {conn after : Connection} {text : String} {statement : Statement}
    (htext : readText text = .ok [statement]) (hplain : IsPlain statement) :
    conn.runBatch text = (.ok (), after) ↔
      ∃ store, attempt conn.refusals conn.contents [] statement = .ok store ∧
        after = (conn.traced [.statement .batch text]).setContents store := by
  cases hattempt : attempt conn.refusals conn.contents [] statement with
  | ok store => simp [runBatch_of_ok conn htext hplain hattempt, eq_comm]
  | error cause => simp [runBatch_of_error conn htext hplain hattempt]

theorem attempt_eq_ok_iff {refusals : Refusals} {store after : Store} {values : List Value}
    {statement : Statement} : attempt refusals store values statement = .ok after ↔
      refusals.ofStatement store values statement = none ∧
        change store values statement = .ok after := by
  unfold attempt
  cases refusals.ofStatement store values statement <;> simp

end Engine.Connection

theorem Engine.Store.createTable_eq_ok_iff {store after : Store} {name : String}
    {columns : List ColumnDef} : store.createTable name columns = .ok after ↔
      store.find? (lower name) = none ∧ ((columns.map (·.name)).map lower).Nodup ∧
        after = store.insert (lower name) (.table columns []) := by
  rw [← NameMap.contains_eq_false_iff, ← repeated?_eq_none_iff, Store.createTable]
  cases store.contains (lower name) with
  | true => simp
  | false => cases repeated? (columns.map (·.name)) <;> simp [eq_comm]

namespace Table

open Engine.Connection

/-! ### A table just made -/

/-- A table is made exactly if no relation has its name yet and the engine does not refuse it. -/
theorem runBatch_createText_eq_ok_iff {table : Descriptor} (htable : table.Positional)
    {conn made : Connection} : conn.runBatch table.createText = (.ok (), made) ↔
      Cache.createRefusal? conn.refusals table = none ∧
        conn.contents.find? (lower table.name) = none ∧
        made = (conn.traced [.statement .batch table.createText]).setContents
          (conn.contents.insert (lower table.name) (.table table.columnDefs [])) := by
  have hnodup := htable.nodup_names
  rw [← Descriptor.names_columnDefs] at hnodup
  rw [runBatch_eq_ok_iff (Cache.readText_createText_of_positional htable) trivial]
  simp only [attempt_eq_ok_iff, change, Store.createTable_eq_ok_iff, hnodup, true_and,
    Refusals.ofStatement, Statement.target?, Option.bind_some]
  constructor
  · rintro ⟨_, ⟨hwilling, hfree, rfl⟩, hmade⟩
    rw [hfree] at hwilling
    exact ⟨hwilling, hfree, hmade⟩
  · rintro ⟨hwilling, hfree, hmade⟩
    exact ⟨_, ⟨by rwa [hfree], hfree, rfl⟩, hmade⟩

/-! ### The two ways -/

theorem getElem?_flatten {width : Nat} {rows : List (List Value)}
    (hwidths : ∀ row ∈ rows, row.length = width) (position : Nat) {column : Nat}
    (hcolumn : column < width) :
    rows.flatten[position * width + column]? = rows[position]?.bind (·[column]?) := by
  induction rows generalizing position with
  | nil => simp
  | cons row rows ih =>
      have hrow := hwidths row List.mem_cons_self
      have hrest := ih fun other hother => hwidths other (List.mem_cons_of_mem _ hother)
      cases position with
      | zero =>
          rw [List.flatten_cons, List.getElem?_append_left (by omega)]
          simp
      | succ position =>
          have hsplit : (position + 1) * width + column =
              row.length + (position * width + column) := by
            rw [hrow]
            ring
          rw [List.flatten_cons, hsplit, List.getElem?_append_right (Nat.le_add_right _ _),
            Nat.add_sub_cancel_left, hrest, List.getElem?_cons_succ]

/-- A batch as one statement and as a bulk load, run on the same connection. -/
structure LoadsAlike (conn : Connection) (table : Descriptor) (batch : Batch) : Prop where
  /-- Both insert as many rows as the batch has. -/
  statement : (conn.executeBound batch.statement batch.params).1 = .ok batch.rowCount
  execute : (batch.execute conn).1 = .ok batch.rowCount
  /-- Both leave the rows of the batch in the table, in their order, and all else as it was. -/
  agree : (conn.executeBound batch.statement batch.params).2.contents =
    (batch.execute conn).2.contents
  contents : (batch.execute conn).2.contents =
    conn.contents.insert (lower table.name) (.table table.columnDefs batch.rows)

/-- The two forms of a batch: one statement with its values, and a bulk load. -/
structure BatchForms (table : Descriptor) (batch : Batch) : Prop where
  /-- The statement has a placeholder for every value beside what is in the name of the table. -/
  marks : batch.statement.toList.count '?' =
    (quote table.name).toList.count '?' + batch.rowCount * table.columns.length
  params : batch.params.length = batch.rowCount * table.columns.length
  /-- The placeholders stand in rows, -/
  grouped : readStatements batch.statement = some [.insert table.name none
    (List.replicate batch.rowCount (List.replicate table.columns.length .placeholder))]
  /-- and receive the rows of the batch, -/
  bound : bindRows batch.params (List.replicate batch.rowCount
    (List.replicate table.columns.length .placeholder)) = some (batch.rows, [])
  /-- each the value of its row and column. -/
  placed : ∀ row column, column < table.columns.length →
    batch.params[row * table.columns.length + column]? = batch.rows[row]?.bind (·[column]?)
  /-- On a table that has just been made both do the same, if the engine refuses neither. -/
  made : ∀ conn made : Connection, conn.runBatch table.createText = (.ok (), made) →
    made.TakesRows table.name → LoadsAlike made table batch

section Batches

variable {table : Descriptor} {rows : List (Except Failure Record.Row)} {batch : Batch}

theorem length_of_mem_batch (hbatch : table.batch rows = .ok batch) :
    ∀ row ∈ batch.rows, row.length = table.columns.length := by
  obtain ⟨typed, htyped, rfl⟩ := Cache.batch_eq_ok_iff.1 hbatch
  intro row hrow
  have hstored := Descriptor.storeRow_of_mem_typedRows htyped row hrow
  rw [Cache.length_of_storeRow_columnDefs hstored, Descriptor.columnNames, List.length_map]

theorem statement_of_batch (hbatch : table.batch rows = .ok batch) :
    batch.statement = insertText table.name table.columns.length batch.rowCount := by
  obtain ⟨typed, _, rfl⟩ := Cache.batch_eq_ok_iff.1 hbatch
  rw [Batch.statement, Descriptor.columnNames, List.length_map]

theorem loadsAlike_of_empty (htable : table.Positional) (hbatch : table.batch rows = .ok batch)
    (hrows : batch.rows ≠ []) {conn : Connection} (htakes : conn.TakesRows table.name)
    (hempty : conn.contents.find? (lower table.name) = some (.table table.columnDefs [])) :
    LoadsAlike conn table batch := by
  have hwidths := length_of_mem_batch hbatch
  have hstatement := statement_of_batch hbatch
  obtain ⟨typed, htyped, rfl⟩ := Cache.batch_eq_ok_iff.1 hbatch
  have hstored := Descriptor.storeRow_of_mem_typedRows htyped
  have hnonempty : table.columns.length ≠ 0 := by simpa using htable.nonempty
  have hload := Cache.load_typed_rows htable conn hempty hstored
  rw [Cache.loadRefusal?_of_takesRows htakes] at hload
  dsimp only at hload
  have hinsert : conn.contents.insertRows table.name none typed =
      .ok (conn.contents.insert (lower table.name) (.table table.columnDefs typed)) := by
    have hall := mapM_eq_ok_iff.2 (List.forall₂_same.2 hstored)
    simp [Store.insertRows, tableOf_eq_ok_iff.2 hempty, hall, Store.addRows, bind, Except.bind]
  have hexecute := executeBound_insertText htakes htable.readable hnonempty hrows hwidths
  rw [hinsert] at hexecute
  constructor
  case statement => rw [hstatement, Batch.rowCount, Batch.params, hexecute]
  case execute => rw [Batch.execute, hload]; rfl
  case agree =>
    rw [hstatement, Batch.rowCount, Batch.params, hexecute, Batch.execute, hload,
      contents_setContents, contents_setContents]
  case contents => rw [Batch.execute, hload, contents_setContents]

/-- The two forms of a batch of at least one row agree, whatever its table is called. -/
theorem batchForms_of_batch {name : String} {types : List ColumnType} (hne : types ≠ [])
    (hbatch : (Descriptor.ofTypes name types).batch rows = .ok batch) (hrows : batch.rows ≠ []) :
    BatchForms (Descriptor.ofTypes name types) batch := by
  set table := Descriptor.ofTypes name types with htable
  have hcolumns : table.columns ≠ [] := Descriptor.columns_ofTypes_ne_nil name hne
  have hwidths := length_of_mem_batch hbatch
  have hstatement := statement_of_batch hbatch
  obtain ⟨width, hwidth⟩ := Nat.exists_eq_succ_of_ne_zero
    (List.length_pos_iff.2 hcolumns).ne'
  obtain ⟨height, hheight⟩ := Nat.exists_eq_succ_of_ne_zero (List.length_pos_iff.2 hrows).ne'
  have hbound := bindRows_placeholders hwidths []
  rw [List.append_nil] at hbound
  constructor
  case marks => rw [hstatement, count_insertText]
  case params =>
    rw [Batch.params, List.length_flatten, List.map_congr_left hwidths, List.map_const',
      List.sum_replicate_nat]
    rfl
  case grouped =>
    rw [hstatement, Batch.rowCount, hwidth, hheight]
    exact readStatements_insertText table.name width height
  case bound => exact hbound
  case placed => exact fun row column hcolumn => getElem?_flatten hwidths row hcolumn
  case made =>
    intro conn made hmade htakes
    have hname : IsReadable name := isReadable_of_runBatch_createText hcolumns hmade
    have hpositional : table.Positional := Descriptor.positional_ofTypes hname hne
    obtain ⟨_, _, rfl⟩ := (runBatch_createText_eq_ok_iff hpositional).1 hmade
    refine loadsAlike_of_empty hpositional hbatch hrows htakes ?_
    rw [contents_setContents]
    exact NameMap.find?_insert_self _ _ _

theorem batchForms_of_two_rows :
    ∃ batch, (Descriptor.ofTypes "a?" [.integer, .text]).batch
        [.ok ⟨2, ["1", "x"]⟩, .ok ⟨3, ["", "y"]⟩] = .ok batch ∧
      batch.rows = [[.integer 1, .text "x"], [.null, .text "y"]] ∧
      BatchForms (Descriptor.ofTypes "a?" [.integer, .text]) batch ∧
      ∃ made, Connection.inMemory.runBatch
        (Descriptor.ofTypes "a?" [.integer, .text]).createText = (.ok (), made) ∧
          made.TakesRows "a?" := by
  have htypes : [ColumnType.integer, .text] ≠ [] := List.cons_ne_nil _ _
  have hname : IsReadable "a?" := by
    unfold IsReadable
    decide
  have hbatch : (Descriptor.ofTypes "a?" [.integer, .text]).batch
      [.ok ⟨2, ["1", "x"]⟩, .ok ⟨3, ["", "y"]⟩] = .ok ⟨"a?", ["a?_0", "a?_1"],
        [[.integer 1, .text "x"], [.null, .text "y"]]⟩ := by
    cbv
  have hmade : Connection.inMemory.runBatch
      (Descriptor.ofTypes "a?" [.integer, .text]).createText = (.ok (), _) :=
    (runBatch_createText_eq_ok_iff (Descriptor.positional_ofTypes hname htypes)).2 ⟨rfl, rfl, rfl⟩
  exact ⟨_, hbatch, rfl, batchForms_of_batch htypes hbatch (List.cons_ne_nil _ _), _, hmade,
    takesRows_of_never rfl _⟩

end Batches

end Table

end LiveTables
