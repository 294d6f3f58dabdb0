import LiveTables.Proofs.TableLoading

/-!
# Steps of a cache

What making one table and loading one table do to a cache. Either fails and leaves behind a longer
trace and nothing else, or it changes the table and the relation of one name.
-/

namespace LiveTables

open LiveTables.Engine LiveTables.Files LiveTables.Sql LiveTables.Table LiveTables.Text
open LiveTables.Watch

namespace Cache

/-- The tables of a cache stand under the lower-case form of their names, and their descriptors are
well formed. -/
def WellFormed (cache : Cache) : Prop :=
  ∀ key entry, cache.entries.find? key = some entry →
    key = lower entry.table.name ∧ entry.table.WellFormed

def relation? (cache : Cache) (key : String) : Option Relation :=
  cache.connection.contents.find? key

def traced (cache : Cache) (spans : List Span) : Cache :=
  { cache with connection := cache.connection.traced spans }

/-- The cache with a table and its rows in the store, and an entry for it. -/
def withEntry (cache : Cache) (entry : Entry) (rows : List (List Value)) (spans : List Span) :
    Cache :=
  { cache with
    connection := (withTable cache.connection entry.table rows).traced spans
    entries := cache.entries.insert (lower entry.table.name) entry }

section Projections

variable (cache : Cache) (entry : Entry) (rows : List (List Value)) (spans : List Span)

@[simp]
theorem traced_entries : (cache.traced spans).entries = cache.entries := rfl

@[simp]
theorem withEntry_entries : (cache.withEntry entry rows spans).entries =
    cache.entries.insert (lower entry.table.name) entry := rfl

@[simp]
theorem withEntry_committed : (cache.withEntry entry rows spans).connection.committed =
    cache.connection.committed.insert (lower entry.table.name)
      (.table entry.table.columnDefs rows) := rfl

@[simp]
theorem withEntry_working :
    (cache.withEntry entry rows spans).connection.working = cache.connection.working := rfl

theorem withEntry_relation?_self (hclosed : cache.connection.working = none) :
    (cache.withEntry entry rows spans).relation? (lower entry.table.name) =
      some (.table entry.table.columnDefs rows) := by
  simp [relation?, Connection.contents, hclosed]

theorem withEntry_relation?_of_ne {key : String} (hne : key ≠ lower entry.table.name) :
    (cache.withEntry entry rows spans).relation? key = cache.relation? key := by
  simp only [relation?, Connection.contents, withEntry_working, withEntry_committed]
  cases cache.connection.working with
  | none => exact NameMap.find?_insert_of_ne _ hne _
  | some store => rfl

end Projections

/-! ### What stays -/

/-- Spans that run no query. -/
def Quiet (spans : List Span) : Prop := ∀ text, Span.statement .query text ∉ spans

theorem quiet_nil : Quiet [] := fun _ => List.not_mem_nil

theorem Quiet.append {first second : List Span} (hfirst : Quiet first) (hsecond : Quiet second) :
    Quiet (first ++ second) := by
  intro text hmem
  rcases List.mem_append.1 hmem with hmem | hmem
  · exact hfirst text hmem
  · exact hsecond text hmem

theorem quiet_recreateSpans (table : Descriptor) : Quiet (recreateSpans table) := by
  intro text
  simp [recreateSpans]

theorem quiet_fillSpans (table : Descriptor) (rows : List (List Value)) :
    Quiet (fillSpans table rows) := by
  refine (quiet_recreateSpans table).append fun text => ?_
  unfold loadSpans
  split_ifs <;> simp

theorem quiet_of_refusal? {conn : Connection} {table : Descriptor} {rows : List (List Value)}
    {cause : EngineError} {spans : List Span}
    (h : refusal? conn table rows = some (cause, spans)) : Quiet spans := by
  unfold refusal? objection? at h
  split_ifs at h
  · cases h
    exact quiet_nil
  -- the cases are the steps of the refused body
  split at h
  · cases h
    intro text
    simp
  split at h
  · cases h
    exact quiet_recreateSpans table
  · obtain ⟨_, hobjection, hpair⟩ := Option.map_eq_some_iff.1 h
    obtain ⟨_, _, rfl⟩ := Option.map_eq_some_iff.1 hobjection
    cases hpair
    exact quiet_fillSpans table rows

/-- What making and loading tables leaves of a cache as it is. -/
structure Frame (cache after : Cache) : Prop where
  format : after.format = cache.format
  extension : after.extension = cache.extension
  matching : after.matching = cache.matching
  inbox : after.inbox = cache.inbox
  working : after.connection.working = cache.connection.working
  refusals : after.connection.refusals = cache.connection.refusals
  trace : ∃ spans, Quiet spans ∧ after.connection.trace = cache.connection.trace ++ spans

theorem Frame.refl (cache : Cache) : Frame cache cache :=
  ⟨rfl, rfl, rfl, rfl, rfl, rfl, [], quiet_nil, by simp⟩

theorem Frame.trans {first second third : Cache} (h : Frame first second)
    (h' : Frame second third) : Frame first third := by
  refine ⟨h'.format.trans h.format, h'.extension.trans h.extension, h'.matching.trans h.matching,
    h'.inbox.trans h.inbox, h'.working.trans h.working, h'.refusals.trans h.refusals, ?_⟩
  obtain ⟨spans, hquiet, htrace⟩ := h.trace
  obtain ⟨spans', hquiet', htrace'⟩ := h'.trace
  exact ⟨spans ++ spans', hquiet.append hquiet', by rw [htrace', htrace, List.append_assoc]⟩

theorem frame_traced (cache : Cache) {spans : List Span} (hquiet : Quiet spans) :
    Frame cache (cache.traced spans) := ⟨rfl, rfl, rfl, rfl, rfl, rfl, spans, hquiet, rfl⟩

theorem frame_withEntry (cache : Cache) (entry : Entry) (rows : List (List Value))
    {spans : List Span} (hquiet : Quiet spans) : Frame cache (cache.withEntry entry rows spans) :=
  ⟨rfl, rfl, rfl, rfl, rfl, rfl, spans, hquiet, rfl⟩

/-- The same table and the same relation stand under a key. -/
structure AgreesAt (key : String) (cache after : Cache) : Prop where
  entry : after.entries.find? key = cache.entries.find? key
  relation : after.relation? key = cache.relation? key

theorem AgreesAt.refl (key : String) (cache : Cache) : AgreesAt key cache cache := ⟨rfl, rfl⟩

theorem AgreesAt.symm {key : String} {cache after : Cache} (h : AgreesAt key cache after) :
    AgreesAt key after cache := ⟨h.entry.symm, h.relation.symm⟩

theorem AgreesAt.trans {key : String} {first second third : Cache} (h : AgreesAt key first second)
    (h' : AgreesAt key second third) : AgreesAt key first third :=
  ⟨h'.entry.trans h.entry, h'.relation.trans h.relation⟩

theorem agreesAt_traced (key : String) (cache : Cache) (spans : List Span) :
    AgreesAt key cache (cache.traced spans) := ⟨rfl, rfl⟩

theorem agreesAt_withEntry {key : String} (cache : Cache) {entry : Entry} (rows : List (List Value))
    (spans : List Span) (hne : key ≠ lower entry.table.name) :
    AgreesAt key cache (cache.withEntry entry rows spans) :=
  ⟨NameMap.find?_insert_of_ne _ hne _, withEntry_relation?_of_ne cache entry rows spans hne⟩

theorem working_of_refusal?_eq_none {conn : Connection} {table : Descriptor}
    {rows : List (List Value)} (h : refusal? conn table rows = none) : conn.working = none := by
  unfold refusal? at h
  split_ifs at h with hopen
  simpa using hopen

theorem WellFormed.traced {cache : Cache} (h : cache.WellFormed) (spans : List Span) :
    (cache.traced spans).WellFormed := h

theorem WellFormed.withEntry {cache : Cache} (h : cache.WellFormed) (entry : Entry)
    (hentry : entry.table.WellFormed) (rows : List (List Value)) (spans : List Span) :
    (cache.withEntry entry rows spans).WellFormed := by
  intro key other hother
  rcases NameMap.find?_insert_eq_some_iff.1 hother with ⟨rfl, rfl⟩ | ⟨_, hother⟩
  · exact ⟨rfl, hentry⟩
  · exact h key other hother

/-! ### Making tables -/

/-- The table that a file without one gets: none if it has no data rows. -/
def sampled (cache : Cache) (tree : Tree) (name path : String) :
    Except Failure (Option Descriptor) :=
  match firstRow cache.format tree path with
  | .error failure => .error failure
  | .ok none => .ok none
  | .ok (some row) => (Descriptor.infer name row.fields).map some

theorem sampled_eq_ok_some {cache : Cache} {tree : Tree} {name path : String} {table : Descriptor}
    (h : cache.sampled tree name path = .ok (some table)) :
    ∃ sample, Descriptor.infer name sample = .ok table := by
  unfold sampled at h
  split at h
  · cases h
  · cases h
  · rename_i row hrow
    refine ⟨row.fields, ?_⟩
    cases hinfer : Descriptor.infer name row.fields with
    | error failure => simp [hinfer, Except.map] at h
    | ok inferred => simpa [hinfer, Except.map] using h

theorem register_eq {cache : Cache} {tree : Tree} {name path : String} (hname : IsIdentifier name) :
    cache.register tree name path = match cache.sampled tree name path with
      | .error failure => (.error failure, cache)
      | .ok none => (.ok .skipped, cache)
      | .ok (some table) => match refusal? cache.connection table [] with
        | some (cause, spans) => (.error (.engine cause), cache.traced spans)
        | none => (.ok .created, cache.withEntry ⟨table, path⟩ [] (recreateSpans table)) := by
  unfold register sampled
  cases firstRow cache.format tree path with
  | error failure => rfl
  | ok first =>
      cases first with
      | none => rfl
      | some row =>
          dsimp only
          cases hinfer : Descriptor.infer name row.fields with
          | error failure => rfl
          | ok table =>
              have htable := Descriptor.wellFormed_of_infer hname hinfer
              have hsame : table.name = name := by
                obtain ⟨_, rfl⟩ := Descriptor.infer_eq_ok_iff.1 hinfer
                rfl
              simp only [Except.map, transaction_recreate htable]
              cases refusal? cache.connection table [] with
              | some refused => rfl
              | none =>
                  simp only [setEntry, withEntry, hsame]

/-! ### Loading tables -/

/-- What loading a table would put into the store, or why it would not. -/
def loading (cache : Cache) (tree : Tree) (entry : Entry) : Except Failure (Descriptor × Batch) :=
  match cache.freshTable tree entry with
  | .error failure => .error failure
  | .ok table => match cache.readBatch tree entry.path table with
    | .error failure => .error failure
    | .ok batch => match refusal? cache.connection table batch.rows with
      | some (cause, _) => .error (.engine cause)
      | none => .ok (table, batch)

theorem loading_eq_ok_iff {cache : Cache} {tree : Tree} {entry : Entry} {table : Descriptor}
    {batch : Batch} : cache.loading tree entry = .ok (table, batch) ↔
      cache.freshTable tree entry = .ok table ∧ cache.readBatch tree entry.path table = .ok batch ∧
        refusal? cache.connection table batch.rows = none := by
  unfold loading
  cases cache.freshTable tree entry with
  | error failure => simp
  | ok fresh =>
      dsimp only
      cases hbatch : cache.readBatch tree entry.path fresh with
      | error failure =>
          simp only [reduceCtorEq, Except.ok.injEq, false_iff, not_and]
          rintro rfl hother
          simp [hbatch] at hother
      | ok found =>
          dsimp only
          cases hrefusal : refusal? cache.connection fresh found.rows with
          | some refused =>
              simp only [reduceCtorEq, Except.ok.injEq, false_iff, not_and]
              rintro rfl hother
              rw [hbatch, Except.ok.injEq] at hother
              simp [← hother, hrefusal]
          | none =>
              simp only [Except.ok.injEq, Prod.mk.injEq]
              constructor
              · rintro ⟨rfl, rfl⟩
                exact ⟨rfl, hbatch, hrefusal⟩
              · rintro ⟨rfl, hother, _⟩
                exact ⟨rfl, by simpa [hbatch] using hother⟩

theorem wellFormed_of_freshTable {cache : Cache} {tree : Tree} {entry : Entry} {table : Descriptor}
    (hentry : entry.table.WellFormed) (h : cache.freshTable tree entry = .ok table) :
    table.WellFormed ∧ table.name = entry.table.name := by
  unfold freshTable at h
  split at h
  · cases h
  · rename_i row hrow
    refine ⟨Descriptor.wellFormed_of_infer hentry.identifier h, ?_⟩
    obtain ⟨_, rfl⟩ := Descriptor.infer_eq_ok_iff.1 h
    rfl
  · rw [Except.ok.injEq] at h
    have htypes : entry.table.types ≠ [] := by simpa [Descriptor.types] using hentry.nonempty
    exact h ▸ ⟨Descriptor.wellFormed_ofTypes hentry.identifier htypes, rfl⟩

theorem readBatch_eq_ok_iff {cache : Cache} {tree : Tree} {path : String} {table : Descriptor}
    {batch : Batch} : cache.readBatch tree path table = .ok batch ↔
      ∃ rows, sourceRows cache.format tree path = .ok rows ∧ table.batch rows = .ok batch := by
  unfold readBatch
  cases sourceRows cache.format tree path <;> simp

theorem install_eq {cache : Cache} {table : Descriptor} {batch : Batch}
    {rows : List (Except Failure Record.Row)} {entry : Entry} (htable : table.WellFormed)
    (hbatch : table.batch rows = .ok batch) (hentry : cache.entry? table.name = some entry) :
    cache.install table batch = match refusal? cache.connection table batch.rows with
      | some (cause, spans) => (.error (.engine cause), cache.traced spans)
      | none => (.ok batch.rows.length, cache.withEntry ⟨table.markClean, entry.path⟩ batch.rows
          (fillSpans table batch.rows)) := by
  have hfound : cache.entries.find? (lower table.name) = some entry := hentry
  rw [install, transaction_fill htable cache.connection hbatch]
  cases refusal? cache.connection table batch.rows with
  | some refused => rfl
  | none =>
      unfold entry?
      simp only [hfound]
      rfl

theorem reload_of_unknown {cache : Cache} {tree : Tree} {name : String}
    (h : cache.entry? name = none) :
    cache.reload tree name = (.error (.unknownTable name), cache) := by
  simp [reload, h]

section Reload

variable {cache : Cache} {tree : Tree} {name : String} {entry : Entry}

theorem reload_of_loading_ok (hcache : cache.WellFormed) (hentry : cache.entry? name = some entry)
    {table : Descriptor} {batch : Batch} (h : cache.loading tree entry = .ok (table, batch)) :
    cache.reload tree name = (.ok batch.rows.length,
      cache.withEntry ⟨table.markClean, entry.path⟩ batch.rows (fillSpans table batch.rows)) := by
  obtain ⟨hfresh, hread, hrefusal⟩ := loading_eq_ok_iff.1 h
  obtain ⟨hkey, hformed⟩ := hcache _ _ hentry
  obtain ⟨htable, hname⟩ := wellFormed_of_freshTable hformed hfresh
  obtain ⟨rows, _, hbatch⟩ := readBatch_eq_ok_iff.1 hread
  have hfound : cache.entry? table.name = some entry := by
    show cache.entries.find? (lower table.name) = some entry
    rw [hname, ← hkey]
    exact hentry
  simp only [reload, hentry, hfresh, hread, install_eq htable hbatch hfound, hrefusal]

theorem reload_of_loading_error (hcache : cache.WellFormed)
    (hentry : cache.entry? name = some entry) {failure : Failure}
    (h : cache.loading tree entry = .error failure) :
    ∃ spans, Quiet spans ∧
      cache.reload tree name = (.error failure, cache.traced spans) := by
  obtain ⟨hkey, hformed⟩ := hcache _ _ hentry
  have hquiet : cache = cache.traced [] := by simp [traced]
  unfold loading at h
  cases hfresh : cache.freshTable tree entry with
  | error cause =>
      rw [hfresh] at h
      cases h
      exact ⟨[], quiet_nil, by simp [reload, hentry, hfresh, ← hquiet]⟩
  | ok table =>
      obtain ⟨htable, hname⟩ := wellFormed_of_freshTable hformed hfresh
      rw [hfresh] at h
      dsimp only at h
      cases hread : cache.readBatch tree entry.path table with
      | error cause =>
          rw [hread] at h
          cases h
          exact ⟨[], quiet_nil, by simp [reload, hentry, hfresh, hread, ← hquiet]⟩
      | ok batch =>
          obtain ⟨rows, _, hbatch⟩ := readBatch_eq_ok_iff.1 hread
          have hfound : cache.entry? table.name = some entry := by
            show cache.entries.find? (lower table.name) = some entry
            rw [hname, ← hkey]
            exact hentry
          rw [hread] at h
          dsimp only at h
          cases hrefusal : refusal? cache.connection table batch.rows with
          | none => simp [hrefusal] at h
          | some refused =>
              rw [hrefusal] at h
              cases h
              refine ⟨refused.2, quiet_of_refusal? hrefusal, ?_⟩
              simp only [reload, hentry, hfresh, hread, install_eq htable hbatch hfound, hrefusal]

end Reload

/-! ### Loaded tables -/

theorem typedRows_markClean (table : Descriptor) (rows : List (Except Failure Record.Row)) :
    table.markClean.typedRows rows = table.typedRows rows := by
  induction rows with
  | nil => rfl
  | cons row rows ih =>
      cases row with
      | error failure => rfl
      | ok row =>
          have hrow : table.markClean.typedRow row = table.typedRow row := rfl
          rw [Descriptor.typedRows, Descriptor.typedRows, hrow, ih]

/-- A clean table whose columns are like the first row of its file, if there is one, and whose rows
in the store are the typed rows of the file. -/
structure Loaded (cache : Cache) (tree : Tree) (entry : Entry) : Prop where
  clean : entry.table.dirty = false
  columns : cache.freshTable tree entry = .ok entry.table.markDirty
  rows : ∃ rows values, sourceRows cache.format tree entry.path = .ok rows ∧
    entry.table.typedRows rows = .ok values ∧
    cache.relation? (lower entry.table.name) = some (.table entry.table.columnDefs values)

theorem freshTable_of_freshTable {cache : Cache} {tree : Tree} {entry : Entry} {table : Descriptor}
    (h : cache.freshTable tree entry = .ok table) :
    table.markClean.markDirty = table ∧
      cache.freshTable tree ⟨table.markClean, entry.path⟩ = .ok table := by
  unfold freshTable at h ⊢
  dsimp only
  cases hrow : firstRow cache.format tree entry.path with
  | error failure => simp [hrow] at h
  | ok first =>
      rw [hrow] at h
      cases first with
      | some row =>
          dsimp only at h ⊢
          obtain ⟨_, rfl⟩ := Descriptor.infer_eq_ok_iff.1 h
          exact ⟨rfl, h⟩
      | none =>
          simp only [Except.ok.injEq] at h ⊢
          subst h
          refine ⟨rfl, ?_⟩
          simp [Descriptor.ofTypes, Descriptor.types, Descriptor.markClean, Function.comp_def]

theorem loaded_of_fresh {cache after : Cache} {tree : Tree} {entry : Entry} {table : Descriptor}
    {batch : Batch} (hformat : after.format = cache.format)
    (hfresh : cache.freshTable tree entry = .ok table)
    (hread : cache.readBatch tree entry.path table = .ok batch)
    (hrelation : after.relation? (lower table.name) = some (.table table.columnDefs batch.rows)) :
    Loaded after tree ⟨table.markClean, entry.path⟩ := by
  obtain ⟨hdirty, hagain⟩ := freshTable_of_freshTable hfresh
  obtain ⟨rows, hrows, hbatch⟩ := readBatch_eq_ok_iff.1 hread
  obtain ⟨values, hvalues, rfl⟩ := batch_eq_ok_iff.1 hbatch
  refine ⟨rfl, ?_, rows, values, hformat ▸ hrows, (typedRows_markClean table rows).trans hvalues,
    hrelation⟩
  rw [freshTable, hformat]
  exact hagain.trans (congrArg Except.ok hdirty.symm)

end Cache

end LiveTables
