import LiveTables.Proofs.DataRows
import LiveTables.Proofs.RefreshIsolation

/-!
# The outcome of a load

Whether the table of a file can be loaded is decided by the data rows of the file: all of them have
to fit the types that the first one suggests. The store then answers a query of the whole table with
the values of these rows, and nothing of what the table was before is left but its name and its
file.
-/

namespace LiveTables

open LiveTables.Engine LiveTables.Files LiveTables.Sql LiveTables.Table LiveTables.Text

namespace Cache

/-! ### Rows of one shape -/

section Rows

variable {α : Type} {rows : List (Except α Record.Row)}

/-- Every data row can be read and fits the types that the first of them suggests. -/
def Uniform (rows : List (Except α Record.Row)) : Prop :=
  ∀ first rest, rows = first :: rest → ∃ sample, first = .ok sample ∧
    ∀ item ∈ rows, ∃ row, item = .ok row ∧ Fits (sample.fields.map ColumnType.infer) row.fields

theorem uniform_nil : Uniform ([] : List (Except α Record.Row)) := by
  intro first rest h
  cases h

theorem not_uniform_cons_error (failure : α) (rest : List (Except α Record.Row)) :
    ¬ Uniform (.error failure :: rest) := by
  intro h
  obtain ⟨sample, hsample, _⟩ := h _ rest rfl
  cases hsample

/-- The first row always fits the types that it suggests, so only the others have to be looked
at. -/
theorem uniform_cons_ok_iff {sample : Record.Row} {rest : List (Except α Record.Row)} :
    Uniform (.ok sample :: rest) ↔ ∀ item ∈ rest, ∃ row, item = .ok row ∧
      Fits (sample.fields.map ColumnType.infer) row.fields := by
  constructor
  · intro h item hitem
    obtain ⟨other, hother, hfits⟩ := h _ rest rfl
    obtain rfl := Except.ok.inj hother
    exact hfits item (List.mem_cons_of_mem _ hitem)
  · rintro h _ _ ⟨⟩
    refine ⟨sample, rfl, fun item hitem => ?_⟩
    rcases List.mem_cons.1 hitem with rfl | hitem
    · exact ⟨sample, rfl, fits_infer sample.fields⟩
    · exact h item hitem

/-- The table that is made for rows: like the first of them, or with the types that it had
before. -/
def Suggests (previous : Descriptor) (rows : List (Except α Record.Row)) (table : Descriptor) :
    Prop :=
  (∃ sample rest, rows = .ok sample :: rest ∧
    Descriptor.infer previous.name sample.fields = .ok table) ∨
  (rows = [] ∧ table = .ofTypes previous.name previous.types)

theorem types_of_infer {name : String} {sample : List String} {table : Descriptor}
    (h : Descriptor.infer name sample = .ok table) : table.types = sample.map ColumnType.infer := by
  obtain ⟨_, rfl⟩ := Descriptor.infer_eq_ok_iff.1 h
  simp [Descriptor.ofTypes, Descriptor.types, Function.comp_def]

/-- There are values for a table that rows suggest exactly when the rows are of one shape. -/
theorem exists_suggests_iff {previous : Descriptor}
    (hfields : ∀ row, .ok row ∈ rows → row.fields ≠ []) :
    (∃ table values, Suggests previous rows table ∧
      List.Forall₂ (RowValues table.types) rows values) ↔ Uniform rows := by
  cases rows with
  | nil => exact iff_of_true ⟨_, [], Or.inr ⟨rfl, rfl⟩, .nil⟩ uniform_nil
  | cons first rest =>
      cases first with
      | error failure =>
          refine iff_of_false ?_ (not_uniform_cons_error failure rest)
          rintro ⟨table, values, hsuggests, _⟩
          simp [Suggests] at hsuggests
      | ok sample =>
          have hsuggests : ∀ {table}, Suggests previous (.ok sample :: rest) table ↔
              Descriptor.infer previous.name sample.fields = .ok table := by
            simp [Suggests]
          constructor
          · rintro ⟨table, values, hinfer, hvalues⟩
            have hfits := exists_rowValues_iff.1 ⟨values, hvalues⟩
            rw [types_of_infer (hsuggests.1 hinfer)] at hfits
            exact uniform_cons_ok_iff.2 fun item hitem => hfits item (List.mem_cons_of_mem _ hitem)
          · intro h
            have hinfer : Descriptor.infer previous.name sample.fields =
                .ok (.ofTypes previous.name (sample.fields.map ColumnType.infer)) :=
              Descriptor.infer_eq_ok_iff.2 ⟨hfields sample List.mem_cons_self, rfl⟩
            obtain ⟨other, hother, hfits⟩ := h _ rest rfl
            obtain rfl := Except.ok.inj hother
            rw [← types_of_infer hinfer] at hfits
            obtain ⟨values, hvalues⟩ := exists_rowValues_iff.2 hfits
            exact ⟨_, values, hsuggests.2 hinfer, hvalues⟩

end Rows

section MapError

variable {α β : Type} (wrap : α → β) {rows : List (Except α Record.Row)}

theorem mapError_eq_ok_iff {item : Except α Record.Row} {row : Record.Row} :
    item.mapError wrap = .ok row ↔ item = .ok row := by
  cases item <;> simp [Except.mapError]

theorem suggests_mapError_iff {previous table : Descriptor} :
    Suggests previous (rows.map fun item => item.mapError wrap) table ↔
      Suggests previous rows table := by
  cases rows with
  | nil => simp [Suggests]
  | cons first rest => simp [Suggests, mapError_eq_ok_iff]

theorem forall₂_mapError_iff {types : List ColumnType} {values : List (List Value)} :
    List.Forall₂ (RowValues types) (rows.map fun item => item.mapError wrap) values ↔
      List.Forall₂ (RowValues types) rows values := by
  rw [List.forall₂_map_left_iff]
  exact iff_of_eq (congrArg (List.Forall₂ · rows values)
    (funext₂ fun item values => by simp only [RowValues, mapError_eq_ok_iff]))

end MapError

/-! ### Loads of rows -/

theorem freshTable_eq_ok_iff {cache : Cache} {tree : Tree} {entry : Entry} {table : Descriptor}
    {rows : List (Except Failure Record.Row)}
    (hrows : sourceRows cache.format tree entry.path = .ok rows) :
    cache.freshTable tree entry = .ok table ↔ Suggests entry.table rows table := by
  unfold freshTable firstRow
  rw [hrows]
  cases rows with
  | nil => simp [Suggests, eq_comm]
  | cons first rest => cases first <;> simp [Suggests]

theorem loading_eq_ok_iff_of_rows {cache : Cache} {tree : Tree} {entry : Entry}
    {table : Descriptor} {batch : Batch} {rows : List (Except Failure Record.Row)}
    (hformed : entry.table.WellFormed)
    (hrows : sourceRows cache.format tree entry.path = .ok rows)
    (haccepts : ∀ table rows, table.name = entry.table.name →
      refusal? cache.connection table rows = none) :
    cache.loading tree entry = .ok (table, batch) ↔ Suggests entry.table rows table ∧
      ∃ values, table.typedRows rows = .ok values ∧
        batch = ⟨table.name, table.columnNames, values⟩ := by
  rw [loading_eq_ok_iff, freshTable_eq_ok_iff hrows, readBatch_eq_ok_iff]
  simp only [hrows, Except.ok.injEq, exists_eq_left', batch_eq_ok_iff]
  refine and_congr_right fun hsuggests => and_iff_left_of_imp fun _ => ?_
  exact haccepts table batch.rows
    (wellFormed_of_freshTable hformed ((freshTable_eq_ok_iff hrows).2 hsuggests)).2

/-- The store takes a table of the name with any rows: no transaction is open, the name is none of
its views, and the engine refuses none of the statements and appends of a load. -/
structure Accepts (conn : Connection) (name : String) : Prop where
  closed : conn.working = none
  free : ∀ labels row, conn.committed.find? (lower name) ≠ some (.view labels row)
  drops : ∀ standing, conn.refusals.statement standing [] (.dropTable true name) = none
  makes : ∀ columns, conn.refusals.statement none [] (.createTable name columns) = none
  takes : conn.TakesRows name

theorem refusal?_of_accepts {conn : Connection} {table : Descriptor}
    (h : Accepts conn table.name) (rows : List (List Value)) : refusal? conn table rows = none := by
  have hdrop : dropRefusal? conn.refusals (conn.committed.find? (lower table.name)) table.name =
      none := by
    unfold dropRefusal?
    rw [h.drops, Option.none_or]
    split
    · rename_i labels row hview
      exact absurd hview (h.free labels row)
    · rfl
  have hcreate : createRefusal? conn.refusals table = none := h.makes table.columnDefs
  have hload := loadRefusal?_of_takesRows h.takes rows
  simp [refusal?, objection?, h.closed, hdrop, hcreate, hload]

/-- What a load does depends on the name of the table, its path and the rows there, if there are
any. -/
theorem loading_eq_of_rows {cache other : Cache} {tree : Tree} {entry former : Entry}
    {rows : List (Except Failure Record.Row)}
    (hrows : sourceRows cache.format tree entry.path = .ok rows) (hne : rows ≠ [])
    (hformat : other.format = cache.format) (hname : former.table.name = entry.table.name)
    (hpath : former.path = entry.path)
    (haccepts : ∀ table rows, cache.freshTable tree entry = .ok table →
      refusal? other.connection table rows = refusal? cache.connection table rows) :
    other.loading tree former = cache.loading tree entry := by
  have hfresh : other.freshTable tree former = cache.freshTable tree entry := by
    rw [freshTable, freshTable, firstRow, firstRow, hformat, hpath, hname, hrows]
    cases rows with
    | nil => exact absurd rfl hne
    | cons first rest => cases first <;> rfl
  unfold loading
  rw [hfresh, hpath]
  cases htable : cache.freshTable tree entry with
  | error failure => rfl
  | ok table =>
      dsimp only
      rw [readBatch_congr hformat]
      cases cache.readBatch tree entry.path table with
      | error failure => rfl
      | ok batch =>
          dsimp only
          rw [haccepts table batch.rows htable]

/-- Loads of one name that put the same into the store end in the same way. -/
theorem reload_eq_of_loading {cache other : Cache} {tree : Tree} {name : String}
    {entry former : Entry} (hcache : cache.WellFormed) (hother : other.WellFormed)
    (hentry : cache.entries.find? (lower name) = some entry)
    (hformer : other.entries.find? (lower name) = some former) (hpath : former.path = entry.path)
    (hsame : other.loading tree former = cache.loading tree entry) :
    (other.reload tree name).1 = (cache.reload tree name).1 ∧
      ∀ count, (cache.reload tree name).1 = .ok count →
        AgreesAt (lower name) (cache.reload tree name).2 (other.reload tree name).2 := by
  cases hloading : cache.loading tree entry with
  | error failure =>
      obtain ⟨_, _, hreload⟩ := reload_of_loading_error hcache hentry hloading
      obtain ⟨_, _, hreload'⟩ := reload_of_loading_error hother hformer (hsame.trans hloading)
      rw [hreload, hreload']
      exact ⟨rfl, fun count h => by cases h⟩
  | ok loaded =>
      obtain ⟨after, hreload, _, hafter, hrelation⟩ := reload_of_loading hcache hentry hloading
      obtain ⟨after', hreload', _, hafter', hrelation'⟩ :=
        reload_of_loading hother hformer (hsame.trans hloading)
      rw [hreload, hreload']
      exact ⟨rfl, fun count _ => ⟨by rw [hafter, hafter', hpath], hrelation'.trans hrelation.symm⟩⟩

/-! ### The outcome -/

/-- What a load leaves of rows: as many as there are, under a clean table that they suggest. The
store answers a query of the whole table, in any spelling, with their values in the order of the
file. -/
structure LoadedRows (after : Cache) (name : String) (previous : Entry)
    (rows : List (Except Record.Fault Record.Row)) (count : Nat) (table : Descriptor)
    (values : List (List Value)) : Prop where
  counted : count = rows.length
  suggested : Suggests previous.table rows table
  entry : after.entries.find? (lower name) = some ⟨table.markClean, previous.path⟩
  typed : List.Forall₂ (RowValues table.types) rows values
  answered : ∀ spelled, lower spelled = lower name →
    (after.connection.query (allColumnsText spelled) []).1 = .ok ⟨table.columnNames, values⟩

/-- What becomes of a dirty table when it is loaded from the data rows of its file. -/
structure LoadOutcome (cache : Cache) (tree : Tree) (name : String) (entry : Entry)
    (rows : List (Except Record.Fault Record.Row)) : Prop where
  /-- Asking for the table alone is this one load, and reports what came of it. -/
  refreshes : cache.ensureFresh tree [name] =
    (match (cache.reload tree name).1 with
      | .ok count => ⟨[(name, count)], []⟩
      | .error failure => ⟨[], [(name, failure)]⟩,
    (cache.reload tree name).2)
  succeeds : (∃ count, (cache.reload tree name).1 = .ok count) ↔ Uniform rows
  loads : ∀ count, (cache.reload tree name).1 = .ok count →
    ∃ table values, LoadedRows (cache.reload tree name).2 name entry rows count table values
  /-- Where there are rows, the columns and rows that the table had before play no part. -/
  independent : rows ≠ [] → ∀ other former, Reachable other → other.format = cache.format →
    other.entries.find? (lower name) = some former → former.table.name = entry.table.name →
    former.path = entry.path → Accepts other.connection former.table.name →
    (other.reload tree name).1 = (cache.reload tree name).1 ∧
      ∀ count, (cache.reload tree name).1 = .ok count →
        AgreesAt (lower name) (cache.reload tree name).2 (other.reload tree name).2

theorem ensureFresh_singleton {cache : Cache} {tree : Tree} {name : String}
    (hdirty : cache.isDirty name = true) :
    cache.ensureFresh tree [name] =
      (match (cache.reload tree name).1 with
        | .ok count => ⟨[(name, count)], []⟩
        | .error failure => ⟨[], [(name, failure)]⟩,
      (cache.reload tree name).2) := by
  have hnames : nameSet [name] = [name] := rfl
  rw [ensureFresh, hnames]
  cases hreload : cache.reload tree name with
  | mk outcome after =>
      cases outcome with
      | ok count => rw [refreshEach_cons_of_ok hdirty hreload]; rfl
      | error failure => rw [refreshEach_cons_of_error hdirty hreload]; rfl

theorem loadedRows_of_loading {cache : Cache} (hcache : cache.WellFormed) {tree : Tree}
    {name : String} {entry : Entry} (hentry : cache.entries.find? (lower name) = some entry)
    {rows : List (Except Record.Fault Record.Row)} {table : Descriptor}
    {values : List (List Value)} (hsuggests : Suggests entry.table rows table)
    (htyped : List.Forall₂ (RowValues table.types) rows values)
    (hloading : cache.loading tree entry =
      .ok (table, ⟨table.name, table.columnNames, values⟩)) :
    ∃ after, cache.reload tree name = (.ok values.length, after) ∧
      LoadedRows after name entry rows values.length table values := by
  obtain ⟨after, hreload, _, hafter, hrelation⟩ := reload_of_loading hcache hentry hloading
  obtain ⟨hkey, hformed⟩ := hcache _ entry hentry
  refine ⟨after, hreload, htyped.length_eq.symm, hsuggests, hafter, htyped, ?_⟩
  intro spelled hsame
  have hreadable := hformed.isReadable_of_lower_eq (hsame.trans hkey)
  rw [Connection.query_allColumns (readText_allColumnsText hreadable) (hsame ▸ hrelation)]
  exact congrArg (fun labels => Except.ok (Answer.mk labels values))
    (Descriptor.names_columnDefs table)

/-- A load succeeds exactly if the rows are alike and the fields of each have the types that the
first row suggests, and then these rows are what the table has. -/
theorem loadOutcome_of_reachable {cache : Cache} (hreachable : cache.Reachable) {tree : Tree}
    {name : String} {entry : Entry} (hentry : cache.entries.find? (lower name) = some entry)
    (hdirty : entry.table.dirty = true) (haccepts : Accepts cache.connection entry.table.name)
    {id : Nat} {content : List UInt8} {modified : Int}
    (hfile : tree.stat entry.path = .ok (.file id content modified)) :
    LoadOutcome cache tree name entry (cache.format.rows content) := by
  have hcache := hreachable.wellFormed
  obtain ⟨hkey, hformed⟩ := hcache _ entry hentry
  have hrefusal : ∀ table rows, table.name = entry.table.name →
      refusal? cache.connection table rows = none := fun table rows hname =>
    refusal?_of_accepts (hname ▸ haccepts) rows
  set rows := cache.format.rows content with hrowsDef
  have hrows : sourceRows cache.format tree entry.path =
      .ok (rows.map fun item => item.mapError .record) := by
    simp [sourceRows, Record.Format.openRows, hfile, hrowsDef]
  have hloading : ∀ {table batch}, cache.loading tree entry = .ok (table, batch) ↔
      Suggests entry.table rows table ∧ ∃ values,
        List.Forall₂ (RowValues table.types) rows values ∧
          batch = ⟨table.name, table.columnNames, values⟩ := by
    intro table batch
    simp only [loading_eq_ok_iff_of_rows hformed hrows hrefusal, suggests_mapError_iff,
      Descriptor.typedRows_eq_ok_iff, forall₂_mapError_iff]
  have hloads : ∀ count, (cache.reload tree name).1 = .ok count →
      ∃ table values, LoadedRows (cache.reload tree name).2 name entry rows count table values := by
    intro count hcount
    cases houtcome : cache.loading tree entry with
    | error failure =>
        obtain ⟨_, _, hreload⟩ := reload_of_loading_error hcache hentry houtcome
        simp [hreload] at hcount
    | ok loaded =>
        obtain ⟨table, batch⟩ := loaded
        obtain ⟨hsuggests, values, htyped, rfl⟩ := hloading.1 houtcome
        obtain ⟨after, hreload, hloaded⟩ :=
          loadedRows_of_loading hcache hentry hsuggests htyped houtcome
        rw [hreload, Except.ok.injEq] at hcount
        rw [hreload]
        exact ⟨_, values, hcount ▸ hloaded⟩
  have hfields : ∀ row, .ok row ∈ rows → row.fields ≠ [] :=
    fun row hrow => Record.fields_ne_nil_of_mem_rows hrow
  refine ⟨ensureFresh_singleton (isDirty_iff.2 ⟨entry, hentry, hdirty⟩), ?_, hloads, ?_⟩
  · rw [← @exists_suggests_iff _ rows entry.table hfields]
    constructor
    · rintro ⟨count, hcount⟩
      obtain ⟨table, values, hloaded⟩ := hloads count hcount
      exact ⟨table, values, hloaded.suggested, hloaded.typed⟩
    · rintro ⟨table, values, hsuggests, htyped⟩
      obtain ⟨after, hreload, _⟩ := loadedRows_of_loading hcache hentry hsuggests htyped
        (hloading.2 ⟨hsuggests, values, htyped, rfl⟩)
      exact ⟨values.length, congrArg Prod.fst hreload⟩
  · intro hne other former hother hformat hformer hname hpath hothers
    refine reload_eq_of_loading hcache hother.wellFormed hentry hformer hpath ?_
    refine loading_eq_of_rows hrows (by simpa using hne) hformat hname hpath ?_
    intro table rows hfresh
    have htable := (wellFormed_of_freshTable hformed hfresh).2
    rw [hrefusal table rows htable]
    rw [hname, ← htable] at hothers
    exact refusal?_of_accepts hothers rows

theorem loadOutcome_of_one_file :
    LoadOutcome (ofOneFile .inMemory .substring) oneFile "A" ⟨oneFileTable, "/a.c"⟩
      ((ofOneFile .inMemory .substring).format.rows [49]) := by
  have hentry : (ofOneFile .inMemory .substring).entries.find? (lower "A") =
      some ⟨oneFileTable, "/a.c"⟩ := entry_ofOneFile .inMemory .substring
  have hfind : (ofOneFile .inMemory .substring).connection.committed.find? (lower "a") =
      some (.table oneFileTable.columnDefs []) := NameMap.find?_insert_self _ _ _
  have haccepts : Accepts (ofOneFile .inMemory .substring).connection "a" := by
    refine ⟨rfl, fun labels row hview => ?_, fun _ => rfl, fun _ => rfl,
      Connection.takesRows_of_never rfl "a"⟩
    rw [hfind] at hview
    cases hview
  exact loadOutcome_of_reachable (reachable_ofOneFile .inMemory .substring rfl) hentry rfl
    haccepts stat_oneFile

end Cache

end LiveTables
