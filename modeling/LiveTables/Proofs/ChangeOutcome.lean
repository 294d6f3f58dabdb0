import LiveTables.Proofs.CacheRuns

/-!
# The outcome of a change

Taking note of a change is all or nothing. A file gets its table together with its entry, or
neither: whatever goes wrong on the way, the tables and the whole store are as they were. A name
that has its table already is marked without a look at the file.
-/

namespace LiveTables

open LiveTables.Engine LiveTables.Files LiveTables.Sql LiveTables.Table LiveTables.Text
open LiveTables.Watch

namespace Cache

/-- No table of the cache has a name, letter case passed over. -/
def Free (cache : Cache) (name : String) : Prop :=
  ∀ key entry, cache.entries.find? key = some entry → lower entry.table.name ≠ lower name

theorem free_iff {cache : Cache} (hcache : cache.WellFormed) {name : String} :
    cache.Free name ↔ cache.entries.find? (lower name) = none := by
  constructor
  · intro hfree
    by_contra hsome
    obtain ⟨entry, hentry⟩ := Option.ne_none_iff_exists'.1 hsome
    exact hfree _ entry hentry (hcache _ entry hentry).1.symm
  · intro hnone key entry hentry hsame
    rw [← hsame, ← (hcache key entry hentry).1, hentry] at hnone
    cases hnone

/-! ### The sample of a file -/

/-- The columns that a sample row suggests for a table. -/
def sampleColumns (name : String) (sample : List String) : List Column :=
  sample.mapIdx fun position field => ⟨name ++ "_" ++ toString position, ColumnType.infer field⟩

theorem columns_ofTypes_infer (name : String) (sample : List String) :
    (Descriptor.ofTypes name (sample.map ColumnType.infer)).columns =
      sampleColumns name sample := by
  apply List.ext_getElem?
  intro position
  simp [Descriptor.ofTypes, sampleColumns, Descriptor.columnName, Function.comp_def]

/-- Why a file gives no table of a name, if it gives none: it cannot be opened, its first data row
cannot be read or has no fields, or the table that is there is not dropped, or the new one not
made. -/
def Fails (cache : Cache) (tree : Tree) (name path : String) (failure : Failure) : Prop :=
  sourceRows cache.format tree path = .error failure ∨
  (∃ rest, sourceRows cache.format tree path = .ok (.error failure :: rest)) ∨
  ∃ row rest, sourceRows cache.format tree path = .ok (.ok row :: rest) ∧
    ((row.fields = [] ∧ failure = .emptyRow name) ∨
      ∃ cause spans, failure = .engine cause ∧
        refusal? cache.connection ⟨name, sampleColumns name row.fields, true⟩ [] =
          some (cause, spans))

section Sampled

variable {cache : Cache} {tree : Tree} {name path : String}

theorem firstRow_eq_error_iff {format : Record.Format} {failure : Failure} :
    firstRow format tree path = .error failure ↔
      sourceRows format tree path = .error failure ∨
        ∃ rest, sourceRows format tree path = .ok (.error failure :: rest) := by
  unfold firstRow
  rcases sourceRows format tree path with _ | _ | ⟨_ | _, _⟩ <;> simp [eq_comm]

theorem firstRow_eq_none_iff {format : Record.Format} :
    firstRow format tree path = .ok none ↔ sourceRows format tree path = .ok [] := by
  unfold firstRow
  rcases sourceRows format tree path with _ | _ | ⟨_ | _, _⟩ <;> simp

theorem firstRow_eq_some_iff {format : Record.Format} {row : Record.Row} :
    firstRow format tree path = .ok (some row) ↔
      ∃ rest, sourceRows format tree path = .ok (.ok row :: rest) := by
  unfold firstRow
  rcases sourceRows format tree path with _ | _ | ⟨_ | _, _⟩ <;> simp

theorem sampled_eq_none_iff :
    cache.sampled tree name path = .ok none ↔ sourceRows cache.format tree path = .ok [] := by
  rw [← firstRow_eq_none_iff, sampled]
  rcases firstRow cache.format tree path with _ | _ | row
  · simp
  · simp
  · cases h : Descriptor.infer name row.fields <;> simp [h, Except.map]

theorem sampled_eq_some_iff {table : Descriptor} :
    cache.sampled tree name path = .ok (some table) ↔
      ∃ row rest, sourceRows cache.format tree path = .ok (.ok row :: rest) ∧ row.fields ≠ [] ∧
        table = ⟨name, sampleColumns name row.fields, true⟩ := by
  have hinfer : ∀ {sample : List String}, Descriptor.infer name sample = .ok table ↔
      sample ≠ [] ∧ table = ⟨name, sampleColumns name sample, true⟩ := by
    intro sample
    rw [Descriptor.infer_eq_ok_iff, ← columns_ofTypes_infer]
    rfl
  simp only [← hinfer, exists_and_right, ← firstRow_eq_some_iff]
  rw [sampled]
  rcases firstRow cache.format tree path with _ | _ | row
  · simp
  · simp
  · cases h : Descriptor.infer name row.fields <;> simp [h, Except.map]

theorem fails_of_sampled_error {failure : Failure}
    (h : cache.sampled tree name path = .error failure) : cache.Fails tree name path failure := by
  unfold sampled at h
  cases hfirst : firstRow cache.format tree path with
  | error cause =>
      obtain rfl : cause = failure := by simpa [hfirst] using h
      exact (firstRow_eq_error_iff.1 hfirst).imp_right Or.inl
  | ok first =>
      cases first with
      | none => simp [hfirst] at h
      | some row =>
          obtain ⟨rest, hrows⟩ := firstRow_eq_some_iff.1 hfirst
          refine Or.inr (Or.inr ⟨row, rest, hrows, Or.inl ?_⟩)
          by_cases hempty : row.fields = []
          · simp [hfirst, Descriptor.infer, hempty, Except.map, eq_comm] at h ⊢
            exact h
          · simp [hfirst, Descriptor.infer, hempty, Except.map] at h

end Sampled

/-! ### The outcome -/

section Outcome

variable {cache : Cache} {tree : Tree} {change : Change}

theorem handleChange_skipped_iff (hcache : cache.WellFormed) :
    (cache.handleChange tree change).1 = .ok .skipped ↔
      nameFor? change.fileName cache.extension = none ∨
        ∃ name, nameFor? change.fileName cache.extension = some name ∧ cache.Free name ∧
          sourceRows cache.format tree change.path = .ok [] := by
  simp only [free_iff hcache]
  cases hname : nameFor? change.fileName cache.extension with
  | none => simp [handleChange_of_unnamed hname]
  | some name =>
      cases hentry : cache.entries.find? (lower name) with
      | some entry => simp [handleChange_of_known hname hentry, hentry]
      | none =>
          have hempty := @sampled_eq_none_iff cache tree name change.path
          rw [handleChange_of_unknown hname hentry, register_eq (isIdentifier_of_nameFor? hname)]
          rcases hsampled : cache.sampled tree name change.path with _ | _ | table
          · simp [← hempty, hsampled]
          · simp [hentry, ← hempty, hsampled]
          · cases hrefusal : refusal? cache.connection table [] <;>
              simp [← hempty, hsampled, hrefusal]

theorem fails_of_handleChange_error (hcache : cache.WellFormed) {failure : Failure}
    (h : (cache.handleChange tree change).1 = .error failure) :
    ∃ name, nameFor? change.fileName cache.extension = some name ∧ cache.Free name ∧
      cache.Fails tree name change.path failure := by
  cases hname : nameFor? change.fileName cache.extension with
  | none => simp [handleChange_of_unnamed hname] at h
  | some name =>
      cases hentry : cache.entries.find? (lower name) with
      | some entry => simp [handleChange_of_known hname hentry] at h
      | none =>
          refine ⟨name, rfl, (free_iff hcache).2 hentry, ?_⟩
          rw [handleChange_of_unknown hname hentry,
            register_eq (isIdentifier_of_nameFor? hname)] at h
          rcases hsampled : cache.sampled tree name change.path with cause | _ | table
          · obtain rfl : cause = failure := by simpa [hsampled] using h
            exact fails_of_sampled_error hsampled
          · simp [hsampled] at h
          · obtain ⟨row, rest, hrows, _, rfl⟩ := sampled_eq_some_iff.1 hsampled
            refine Or.inr (Or.inr ⟨row, rest, hrows, Or.inr ?_⟩)
            cases hrefusal :
                refusal? cache.connection ⟨name, sampleColumns name row.fields, true⟩ [] with
            | none => simp [hsampled, hrefusal] at h
            | some refused =>
                exact ⟨refused.1, refused.2, by simpa [hsampled, hrefusal, eq_comm] using h, rfl⟩

end Outcome

/-! ### What a change may do -/

/-- What taking note of a change promises, by its outcome, about the cache after it. -/
structure ChangeContract (cache : Cache) (tree : Tree) (change : Change)
    (outcome : Except Failure ChangeOutcome) (after : Cache) : Prop where
  /-- The settings, the inbox and an open transaction stay, and no query is run. -/
  frame : Frame cache after
  untouched : outcome = .ok .skipped ∨ (∃ failure, outcome = .error failure) →
    after = { cache with
      connection := { cache.connection with trace := after.connection.trace } }
  skipped : outcome = .ok .skipped ↔ nameFor? change.fileName cache.extension = none ∨
    ∃ name, nameFor? change.fileName cache.extension = some name ∧ cache.Free name ∧
      sourceRows cache.format tree change.path = .ok []
  failed : ∀ failure, outcome = .error failure →
    ∃ name, nameFor? change.fileName cache.extension = some name ∧ cache.Free name ∧
      cache.Fails tree name change.path failure
  /-- A table that is made is empty, dirty and like the first data row, in the cache and in the
  store, and nothing else is different. -/
  created : outcome = .ok .created → ∃ name row rest table,
    nameFor? change.fileName cache.extension = some name ∧ cache.Free name ∧
    sourceRows cache.format tree change.path = .ok (.ok row :: rest) ∧
    table = ⟨name, sampleColumns name row.fields, true⟩ ∧
    after.entries = cache.entries.insert (lower name) ⟨table, change.path⟩ ∧
    after.connection = { cache.connection with
      committed := cache.connection.committed.insert (lower name)
        (.table (table.columns.map fun column => ⟨column.name, column.type.sqlType, false⟩) [])
      trace := after.connection.trace } ∧
    cache.connection.working = none
  /-- A table that is there gets the mark and the path, whatever has become of the file. -/
  known : ∀ name key entry, nameFor? change.fileName cache.extension = some name →
    cache.entries.find? key = some entry → lower entry.table.name = lower name →
    outcome = .ok .markedDirty ∧ after = { cache with
      entries := cache.entries.insert key ⟨{ entry.table with dirty := true }, change.path⟩ }
  marked : outcome = .ok .markedDirty →
    ∃ name, nameFor? change.fileName cache.extension = some name ∧ ¬ cache.Free name

theorem changeContract_of_reachable {cache : Cache} (hreachable : cache.Reachable) (tree : Tree)
    (change : Change) :
    ChangeContract cache tree change (cache.handleChange tree change).1
      (cache.handleChange tree change).2 := by
  have hcache := hreachable.wellFormed
  refine ⟨frame_handleChange cache tree change, ?_, handleChange_skipped_iff hcache,
    fun _ => fails_of_handleChange_error hcache, ?_, ?_, ?_⟩
  · intro houtcome
    rcases handleChange_outcome cache tree change with ⟨_, spans, _, _, _, hafter⟩ |
      ⟨_, _, _, _, hafter⟩ | ⟨_, _, _, _, _, _, hafter⟩
    · rw [hafter]
      rfl
    · simp [hafter] at houtcome
    · simp [hafter] at houtcome
  · intro houtcome
    rcases handleChange_outcome cache tree change with ⟨_, _, _, hidle, _, hafter⟩ |
      ⟨_, _, _, _, hafter⟩ | ⟨name, table, hname, hnew, hsampled, haccepts, hafter⟩
    · rw [hafter] at houtcome
      subst houtcome
      simp at hidle
    · simp [hafter] at houtcome
    · obtain ⟨row, rest, hrows, _, rfl⟩ := sampled_eq_some_iff.1 hsampled
      rw [hafter]
      exact ⟨name, row, rest, _, hname, (free_iff hcache).2 hnew, hrows, rfl, rfl, rfl,
        working_of_refusal?_eq_none haccepts⟩
  · intro name key entry hname hentry hsame
    -- the key is the table's own name in lower case, and so the file's
    obtain rfl := (hcache key entry hentry).1
    rw [hsame] at hentry ⊢
    rw [handleChange_of_known hname hentry]
    exact ⟨rfl, rfl⟩
  · intro houtcome
    rcases handleChange_outcome cache tree change with ⟨_, _, _, hidle, _, hafter⟩ |
      ⟨name, entry, hname, hentry, _⟩ | ⟨_, _, _, _, _, _, hafter⟩
    · rw [hafter] at houtcome
      subst houtcome
      simp at hidle
    · exact ⟨name, hname, by simp [free_iff hcache, hentry]⟩
    · simp [hafter] at houtcome

/-- A store with an older table under the name of the file's, and an engine that drops it but makes
none in its place. -/
def withOlderTable : Connection where
  committed := NameMap.empty.insert "a" (.table [⟨"x", .varchar, false⟩] [[.text "old"]])
  working := none
  trace := []
  file := none
  refusals := makesNoTable

/-- The case of the letters of a file's name does not count, nor does its being gone. Where a table
is dropped and the new one cannot be made, the old one is there again. -/
theorem changeContract_of_one_file :
    ((ofOneFile .inMemory .substring).Reachable ∧
      ChangeContract (ofOneFile .inMemory .substring) .empty (changeAt "/A.C" 6) (.ok .markedDirty)
        ((ofOneFile .inMemory .substring).handleChange .empty (changeAt "/A.C" 6)).2) ∧
    ∃ cache after, cache.Reachable ∧ cache.connection = withOlderTable ∧
      ChangeContract cache oneFile (changeAt "/a.c" 5)
        (.error (.engine (.rejected (.nameTaken "a")))) after ∧
      after.connection.trace = recreateSpans oneFileTable ∧
      after.connection.committed = withOlderTable.committed := by
  constructor
  · have hreachable := reachable_ofOneFile .inMemory .substring rfl
    have hcontract := changeContract_of_reachable hreachable .empty (changeAt "/A.C" 6)
    have hname : nameFor? (changeAt "/A.C" 6).fileName "c" = some "A" := by decide
    obtain ⟨houtcome, _⟩ :=
      hcontract.known "A" "a" _ hname (entry_ofOneFile .inMemory .substring) rfl
    exact ⟨hreachable, houtcome ▸ hcontract⟩
  · have hreachable := Reachable.new withOlderTable ⟨44, false⟩ "c" .substring
    have hcontract := changeContract_of_reachable hreachable oneFile (changeAt "/a.c" 5)
    have hrefused : refusal? withOlderTable oneFileTable [] =
        some (.rejected (.nameTaken "a"), recreateSpans oneFileTable) := rfl
    have hchange :=
      @handleChange_oneFile (.new withOlderTable ⟨44, false⟩ "c" .substring) rfl rfl rfl
    simp only [Cache.new, hrefused] at hchange
    exact ⟨_, _, hreachable, rfl, by simpa only [Cache.new, hchange] using hcontract, rfl, rfl⟩

end Cache

end LiveTables
