import LiveTables.Proofs.RefreshIsolation

/-!
# What running a query does

A query is run once all waiting changes are noted and every dirty table that its text refers to is
loaded. If one of them cannot be loaded the query is not run, and the others are loaded all the
same.
-/

namespace LiveTables

open LiveTables.Engine LiveTables.Files LiveTables.Sql LiveTables.Table LiveTables.Text

namespace Cache

/-! ### Which tables a query refers to -/

theorem containsText_iff {needle text : List Char} :
    containsText needle text = true ↔ needle <:+: text := by
  induction text with
  | nil => simp [containsText]
  | cons c rest ih => simp [containsText, List.infix_cons_iff, ih]

/-- A query refers to a table when the table's name stands in its text, letter case passed over,
anywhere or as a word outside literals and comments. -/
def Matches (matching : Settings.Matching) (query name : String) : Prop :=
  match matching with
  | .substring => (lower name).toList <:+: (lower query).toList
  | .identifiers => lower name ∈ identifierWords query

theorem refersTo_iff {matching : Settings.Matching} {query name : String} :
    refersTo matching query name = true ↔ Matches matching query name := by
  cases matching with
  | substring => exact containsText_iff
  | identifiers => simp [refersTo, Matches]

theorem mem_referenced_iff {cache : Cache} {query name : String} :
    name ∈ cache.referenced query ↔ ∃ key entry, cache.entries.find? key = some entry ∧
      entry.table.name = name ∧ entry.table.dirty = true ∧ Matches cache.matching query name := by
  simp only [referenced, mem_nameSet, List.mem_map, List.mem_filter, NameMap.mem_values_iff,
    Bool.and_eq_true, refersTo_iff]
  constructor
  · rintro ⟨entry, ⟨⟨key, hentry⟩, hdirty, hmatches⟩, rfl⟩
    exact ⟨key, entry, hentry, rfl, hdirty, hmatches⟩
  · rintro ⟨key, entry, hentry, rfl, hdirty, hmatches⟩
    exact ⟨entry, ⟨⟨key, hentry⟩, hdirty, hmatches⟩, rfl⟩

theorem isDirty_of_mem_referenced {cache : Cache} (hcache : cache.WellFormed) {query name : String}
    (h : name ∈ cache.referenced query) : cache.isDirty name = true := by
  obtain ⟨key, entry, hentry, rfl, hdirty, _⟩ := mem_referenced_iff.1 h
  exact isDirty_iff.2 ⟨entry, (hcache key entry hentry).1 ▸ hentry, hdirty⟩

theorem nodup_keys_referenced {cache : Cache} (hcache : cache.WellFormed) (query : String) :
    ((cache.referenced query).map lower).Nodup := by
  refine List.Nodup.map_on ?_ (nodup_nameSet _)
  intro first hfirst second hsecond hlower
  obtain ⟨key, entry, hentry, rfl, _⟩ := mem_referenced_iff.1 hfirst
  obtain ⟨key', entry', hentry', rfl, _⟩ := mem_referenced_iff.1 hsecond
  rw [(hcache key entry hentry).1, hlower, ← (hcache key' entry' hentry').1, hentry'] at hentry
  rw [Option.some.inj hentry]

/-! ### Loads of dirty tables -/

/-- Dirty tables of different keys are loaded one after the other, each once. -/
theorem refreshEach_of_dirty {cache : Cache} (hcache : cache.WellFormed) (tree : Tree)
    {names : List String} (hnodup : (names.map lower).Nodup)
    (hdirty : ∀ name ∈ names, cache.isDirty name = true) :
    (cache.refreshEach tree names).2 =
        names.foldl (fun cache name => (cache.reload tree name).2) cache ∧
      ((cache.refreshEach tree names).1.reloaded.map (·.1) ++
        (cache.refreshEach tree names).1.failed.map (·.1)).Perm names := by
  induction names generalizing cache with
  | nil => exact ⟨rfl, List.Perm.nil⟩
  | cons name rest ih =>
      obtain ⟨hname, hrest⟩ := List.nodup_cons.1 hnodup
      have hfirst := hdirty name List.mem_cons_self
      -- the first load leaves the tables of other keys as they are, and so dirty
      have hdirty' : ∀ other ∈ rest, (cache.reload tree name).2.isDirty other = true := by
        intro other hother
        have hne : lower other ≠ lower name := fun heq => hname (heq ▸ List.mem_map_of_mem hother)
        rw [isDirty_congr (agreesAt_reload_of_ne hcache tree hne)]
        exact hdirty other (List.mem_cons_of_mem _ hother)
      obtain ⟨hafter, hperm⟩ := ih (wellFormed_reload hcache tree name) hrest hdirty'
      cases hreload : cache.reload tree name with
      | mk outcome after =>
          rw [hreload] at hafter hperm
          cases outcome with
          | ok count =>
              rw [refreshEach_cons_of_ok hfirst hreload, List.foldl_cons, hreload]
              exact ⟨hafter, hperm.cons name⟩
          | error failure =>
              rw [refreshEach_cons_of_error hfirst hreload, List.foldl_cons, hreload]
              exact ⟨hafter, List.perm_middle.trans (hperm.cons name)⟩

theorem sublist_failed (cache : Cache) (tree : Tree) (names : List String) :
    ((cache.refreshEach tree names).1.failed.map (·.1)).Sublist names := by
  induction names generalizing cache with
  | nil => exact List.Sublist.refl _
  | cons name rest ih =>
      cases hdirty : cache.isDirty name with
      | false =>
          rw [refreshEach_cons_of_clean hdirty]
          exact (ih cache).cons name
      | true =>
          cases hreload : cache.reload tree name with
          | mk outcome after =>
              cases outcome with
              | ok count =>
                  rw [refreshEach_cons_of_ok hdirty hreload]
                  exact (ih after).cons name
              | error failure =>
                  rw [refreshEach_cons_of_error hdirty hreload]
                  exact (ih after).cons_cons name

theorem length_reloaded {cache : Cache} (hcache : cache.WellFormed) {tree : Tree}
    {names : List String} (hnodup : (names.map lower).Nodup)
    (hdirty : ∀ name ∈ names, cache.isDirty name = true)
    (hnone : (cache.refreshEach tree names).1.failed = []) :
    (cache.refreshEach tree names).1.reloaded.length = names.length := by
  have hperm := (refreshEach_of_dirty hcache tree hnodup hdirty).2
  rw [hnone, List.map_nil, List.append_nil] at hperm
  simpa using hperm.length_eq

theorem le_of_mem_failed {cache : Cache} {tree : Tree} {names : List String}
    (hordered : names.Pairwise (· < ·)) {name : String} {failure : Failure}
    {rest : List (String × Failure)}
    (hfailed : (cache.refreshEach tree names).1.failed = (name, failure) :: rest) :
    ∀ other ∈ (cache.refreshEach tree names).1.failed, name ≤ other.1 := by
  have hsorted := hordered.sublist (sublist_failed cache tree names)
  rw [hfailed, List.map_cons, List.pairwise_cons] at hsorted
  intro other hother
  rw [hfailed] at hother
  rcases List.mem_cons.1 hother with rfl | hother
  · exact le_rfl
  · exact (hsorted.1 other.1 (List.mem_map_of_mem hother)).le

section Reports

variable {cache : Cache} {tree : Tree} {names : List String} {name : String}

theorem reload_of_mem_reloaded (hcache : cache.WellFormed) {count : Nat}
    (h : (name, count) ∈ (cache.refreshEach tree names).1.reloaded) :
    (cache.reload tree name).1 = .ok count := by
  obtain ⟨entry, table, batch, hentry, _, hloading, rfl, _⟩ := refreshEach_of_mem_reloaded hcache h
  rw [reload_of_loading_ok hcache hentry hloading]

theorem reload_of_mem_failed (hcache : cache.WellFormed) {failure : Failure}
    (h : (name, failure) ∈ (cache.refreshEach tree names).1.failed) :
    (cache.reload tree name).1 = .error failure := by
  obtain ⟨entry, hentry, _, hfails, _⟩ := refreshEach_of_mem_failed hcache h
  obtain ⟨spans, _, hreload⟩ := reload_of_loading_error hcache hentry hfails
  rw [hreload]

theorem loaded_of_mem_reloaded (hcache : cache.WellFormed) {count : Nat}
    (h : (name, count) ∈ (cache.refreshEach tree names).1.reloaded) :
    ∃ entry, (cache.refreshEach tree names).2.entries.find? (lower name) = some entry ∧
      Loaded (cache.refreshEach tree names).2 tree entry := by
  obtain ⟨entry, table, batch, hentry, _, hloading, _, hafter, hrelation⟩ :=
    refreshEach_of_mem_reloaded hcache h
  obtain ⟨hfresh, hread, _⟩ := loading_eq_ok_iff.1 hloading
  obtain ⟨hkey, hformed⟩ := hcache _ entry hentry
  rw [hkey, ← (wellFormed_of_freshTable hformed hfresh).2] at hrelation
  have hformat := (frame_refreshEach hcache tree names).format
  exact ⟨_, hafter, loaded_of_fresh hformat hfresh hread hrelation⟩

theorem clean_of_matches (hcache : cache.WellFormed) {query key : String} {entry : Entry}
    (hnone : (cache.refreshEach tree (cache.referenced query)).1.failed = [])
    (hentry : (cache.refreshEach tree (cache.referenced query)).2.entries.find? key = some entry)
    (hmatches : Matches cache.matching query entry.table.name) : entry.table.dirty = false := by
  by_cases hplanned : ∃ name ∈ cache.referenced query, key = lower name
  · obtain ⟨name, hname, rfl⟩ := hplanned
    have hperm := (refreshEach_of_dirty hcache tree (nodup_keys_referenced hcache query)
      fun other hother => isDirty_of_mem_referenced hcache hother).2
    rw [hnone, List.map_nil, List.append_nil] at hperm
    obtain ⟨⟨_, count⟩, hreloaded, rfl⟩ := List.mem_map.1 (hperm.mem_iff.2 hname)
    obtain ⟨found, hfound, hloaded⟩ := loaded_of_mem_reloaded hcache hreloaded
    rw [hentry, Option.some.injEq] at hfound
    exact hfound ▸ hloaded.clean
  · have hidle : ∀ name ∈ cache.referenced query, key = lower name → cache.isDirty name = false :=
      fun name hname hkey => absurd ⟨name, hname, hkey⟩ hplanned
    rw [(refreshEach_of_idle hcache tree hidle).1.entry] at hentry
    -- the loads have not touched the table: if it were dirty, it would have been in the plan
    by_contra hdirty
    rw [Bool.not_eq_false] at hdirty
    have hname : entry.table.name ∈ cache.referenced query :=
      mem_referenced_iff.2 ⟨key, entry, hentry, rfl, hdirty, hmatches⟩
    exact hplanned ⟨entry.table.name, hname, (hcache key entry hentry).1⟩

end Reports

/-! ### The answer -/

theorem execute_of_failed {cache : Cache} {tree : Tree} {query table : String} {failure : Failure}
    {rest : List (String × Failure)}
    (hfailed : ((cache.drain tree).2.refreshEach tree
      ((cache.drain tree).2.referenced query)).1.failed = (table, failure) :: rest) :
    cache.execute tree query = (.error (.refresh table failure), cache.freshened tree query) := by
  rw [← ensureFresh_referenced] at hfailed
  simp only [execute, plan, hfailed, freshened]

theorem execute_of_fresh {cache : Cache} {tree : Tree} {query : String}
    (hnone : ((cache.drain tree).2.refreshEach tree
      ((cache.drain tree).2.referenced query)).1.failed = []) :
    cache.execute tree query =
      ((((cache.freshened tree query).connection.answer query []).mapError
          fun cause => Failure.engine (.rejected cause)).map
        fun answer => (answer, ((cache.drain tree).2.refreshEach tree
          ((cache.drain tree).2.referenced query)).1.reloaded.length),
      { cache.freshened tree query with
        connection :=
          (cache.freshened tree query).connection.record (.statement .query query) }) := by
  rw [← ensureFresh_referenced] at hnone ⊢
  simp only [execute, plan, hnone, freshened, Connection.query]
  cases Connection.answer _ query [] <;> rfl

/-- What running a query promises: `drained` is the cache with the waiting changes noted, `planned`
the tables to be loaded, `report` what became of their loads and `fresh` the cache after them. -/
structure QueryContract (cache : Cache) (tree : Tree) (query : String) (drained : Cache)
    (planned : List String) (report : Report) (fresh : Cache) : Prop where
  drains : drained =
    cache.waiting.foldl (fun cache change => (cache.handleChange tree change).2) cache.emptied
  plans : ∀ name, name ∈ planned ↔ ∃ key entry, drained.entries.find? key = some entry ∧
    entry.table.name = name ∧ entry.table.dirty = true ∧ Matches cache.matching query name
  ordered : planned.Pairwise (· < ·)
  /-- The tables of the plan are loaded one after the other, each once, and no others. -/
  loads : fresh = planned.foldl (fun cache name => (cache.reload tree name).2) drained
  reports : (report.reloaded.map (·.1) ++ report.failed.map (·.1)).Perm planned
  outside : ∀ key, (∀ name ∈ planned, key ≠ lower name) → AgreesAt key drained fresh
  reloaded : ∀ name count, (name, count) ∈ report.reloaded →
    (drained.reload tree name).1 = .ok count ∧
      ∃ entry, fresh.entries.find? (lower name) = some entry ∧ Loaded fresh tree entry
  failed : ∀ name failure, (name, failure) ∈ report.failed →
    (drained.reload tree name).1 = .error failure ∧ AgreesAt (lower name) drained fresh
  /-- If a load fails, the least name of those that failed is the answer and no query is run. -/
  refuses : report.failed ≠ [] → ∃ name failure, (name, failure) ∈ report.failed ∧
    (∀ other ∈ report.failed, name ≤ other.1) ∧
    cache.execute tree query = (.error (.refresh name failure), fresh) ∧
    ∃ spans, Quiet spans ∧ fresh.connection.trace = cache.connection.trace ++ spans
  /-- If none fails, the store is asked the query as it is, once, with the tables clean that it
  refers to, and its answer is given with the number of loads. -/
  answers : report.failed = [] →
    (∀ key entry, fresh.entries.find? key = some entry →
      Matches cache.matching query entry.table.name → entry.table.dirty = false) ∧
    (cache.execute tree query).1 =
      ((fresh.connection.answer query []).mapError
        fun cause => Failure.engine (.rejected cause)).map
          (fun answer => (answer, planned.length)) ∧
    (cache.execute tree query).2.connection =
      fresh.connection.record (.statement .query query) ∧
    ∃ spans, Quiet spans ∧ (cache.execute tree query).2.connection.trace =
      cache.connection.trace ++ spans ++ [.statement .query query]
  keeps : (cache.execute tree query).2.entries = fresh.entries ∧
    ∀ key, (cache.execute tree query).2.relation? key = fresh.relation? key

/-- A query loads the dirty tables that it refers to, each once, and is then passed to the store as
it is, unless one of the loads fails. -/
theorem queryContract_of_reachable {cache : Cache} (hreachable : cache.Reachable) (tree : Tree)
    (query : String) :
    QueryContract cache tree query (cache.drain tree).2 (cache.plan tree query).1
      ((cache.drain tree).2.ensureFresh tree (cache.plan tree query).1).1
      (cache.freshened tree query) := by
  have hdrained := wellFormed_drain hreachable.wellFormed tree
  have hframe := frame_drain cache tree
  have hmatching : (cache.drain tree).2.matching = cache.matching := hframe.matching
  have hplan : (cache.plan tree query).1 = (cache.drain tree).2.referenced query := rfl
  have hfresh := freshened_eq cache tree query
  have hnodup := nodup_keys_referenced hdrained query
  have hdirty : ∀ name ∈ (cache.drain tree).2.referenced query,
      (cache.drain tree).2.isDirty name = true :=
    fun name hname => isDirty_of_mem_referenced hdrained hname
  obtain ⟨hloads, hreports⟩ := refreshEach_of_dirty hdrained tree hnodup hdirty
  obtain ⟨spans, hquiet, hspans⟩ : ∃ spans, Quiet spans ∧
      (cache.freshened tree query).connection.trace = cache.connection.trace ++ spans := by
    rw [hfresh]
    exact (hframe.trans (frame_refreshEach hdrained tree _)).trace
  rw [hplan, ensureFresh_referenced]
  refine ⟨(drain_eq cache tree).trans (handleChanges_eq_foldl _ tree _), ?_, pairwise_nameSet _,
    hfresh.trans hloads, hreports, ?_, ?_, ?_, ?_, ?_, ?_⟩
  · intro name
    rw [mem_referenced_iff, hmatching]
  · intro key hkey
    rw [hfresh]
    exact (refreshEach_of_idle hdrained tree fun name hname heq => absurd heq (hkey name hname)).1
  · intro name count hreloaded
    rw [hfresh]
    exact ⟨reload_of_mem_reloaded hdrained hreloaded, loaded_of_mem_reloaded hdrained hreloaded⟩
  · intro name failure hfailed
    obtain ⟨_, _, _, _, hagrees⟩ := refreshEach_of_mem_failed hdrained hfailed
    rw [hfresh]
    exact ⟨reload_of_mem_failed hdrained hfailed, hagrees⟩
  · intro hsome
    obtain ⟨⟨name, failure⟩, rest, hfailed⟩ := List.exists_cons_of_ne_nil hsome
    exact ⟨name, failure, hfailed ▸ List.mem_cons_self,
      le_of_mem_failed (pairwise_nameSet _) hfailed, execute_of_failed hfailed, spans, hquiet,
      hspans⟩
  · intro hnone
    rw [execute_of_fresh hnone, length_reloaded hdrained hnodup hdirty hnone]
    refine ⟨?_, rfl, rfl, spans, hquiet, ?_⟩
    · intro key entry hentry hmatches
      rw [hfresh] at hentry
      exact clean_of_matches hdrained hnone hentry (hmatching.symm ▸ hmatches)
    · rw [← hspans]
      rfl
  · rcases execute_cases cache tree query with hafter | hafter
    · rw [hafter]
      exact ⟨rfl, fun key => rfl⟩
    · rw [hafter]
      exact ⟨rfl, fun key => rfl⟩

theorem queryContract_of_one_change : ∃ drained planned report fresh,
    QueryContract (((Cache.new .inMemory ⟨44, true⟩ "csv" .identifiers).apply .empty .attach).apply
        .empty (.send [Watch.changeAt "/a.csv" 5]))
      ⟨NameMap.empty.insert "a.csv" (.file 1 [120, 10, 49] 5), 2, 0⟩ "SELECT * FROM a"
      drained planned report fresh :=
  ⟨_, _, _, _, queryContract_of_reachable
    (.operation _ _ (.operation _ _ (.new .inMemory ⟨44, true⟩ "csv" .identifiers))) _ _⟩

end Cache

end LiveTables
