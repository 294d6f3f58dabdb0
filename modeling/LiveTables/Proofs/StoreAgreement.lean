import LiveTables.Proofs.CacheRuns

/-!
# A cache agrees with its store

For each table of a cache the store holds one of that name with the same columns, and what is not a
table of the cache is as it was before the cache. Nothing that the cache does parts the two,
failures included.
-/

namespace LiveTables

open LiveTables.Engine LiveTables.Files LiveTables.Sql LiveTables.Table LiveTables.Text

namespace Cache

/-- The invariant: descriptors and stored tables go together, and the rest is as in `initial`. -/
structure Synced (initial : Store) (cache : Cache) : Prop where
  wellFormed : cache.WellFormed
  stored : ∀ key entry, cache.entries.find? key = some entry →
    ∃ rows, cache.connection.committed.find? key = some (.table entry.table.columnDefs rows)
  others : ∀ key, cache.entries.find? key = none →
    cache.connection.committed.find? key = initial.find? key
  closed : cache.connection.working = none

section Steps

variable {initial : Store} {cache : Cache}

theorem synced_new {connection : Connection} (hclosed : connection.working = none)
    (format : Record.Format) (extension : String) (matching : Settings.Matching) :
    Synced connection.committed (.new connection format extension matching) where
  wellFormed := by simp [WellFormed, Cache.new]
  stored := by simp [Cache.new]
  others := fun _ _ => rfl
  closed := hclosed

theorem Synced.traced (h : Synced initial cache) (spans : List Span) :
    Synced initial (cache.traced spans) := ⟨h.wellFormed, h.stored, h.others, h.closed⟩

theorem Synced.withEntry (h : Synced initial cache) (entry : Entry)
    (hentry : entry.table.WellFormed) (rows : List (List Value)) (spans : List Span) :
    Synced initial (cache.withEntry entry rows spans) := by
  refine ⟨h.wellFormed.withEntry entry hentry rows spans, ?_, ?_, h.closed⟩
  · intro key other hother
    rw [withEntry_committed]
    rcases NameMap.find?_insert_eq_some_iff.1 hother with ⟨rfl, rfl⟩ | ⟨hne, hother⟩
    · exact ⟨rows, NameMap.find?_insert_self _ _ _⟩
    · rw [NameMap.find?_insert_of_ne _ hne]
      exact h.stored key other hother
  · intro key hnone
    obtain ⟨hne, hnone⟩ := NameMap.find?_insert_eq_none_iff.1 hnone
    rw [withEntry_committed, NameMap.find?_insert_of_ne _ hne]
    exact h.others key hnone

theorem Synced.withMark (h : Synced initial cache) {key : String} {entry : Entry}
    (hentry : cache.entries.find? key = some entry) (path : String) :
    Synced initial (cache.withMark key entry path) := by
  refine ⟨h.wellFormed.withMark hentry path, ?_, ?_, h.closed⟩
  · intro other found hfound
    rcases NameMap.find?_insert_eq_some_iff.1 hfound with ⟨rfl, rfl⟩ | ⟨_, hfound⟩
    · exact h.stored other entry hentry
    · exact h.stored other found hfound
  · intro other hnone
    exact h.others other (NameMap.find?_insert_eq_none_iff.1 hnone).2

theorem Synced.handleChange (h : Synced initial cache) (tree : Tree) (change : Watch.Change) :
    Synced initial (cache.handleChange tree change).2 := by
  rcases handleChange_cases cache tree change with ⟨spans, _, hafter, _⟩ |
    ⟨key, entry, _, hentry, hafter⟩ | ⟨table, _, _, htable, _, _, hafter⟩
  · rw [hafter]
    exact h.traced spans
  · rw [hafter]
    exact h.withMark hentry change.path
  · rw [hafter]
    exact h.withEntry ⟨table, change.path⟩ htable _ _

theorem Synced.reload (h : Synced initial cache) (tree : Tree) (name : String) :
    Synced initial (cache.reload tree name).2 := by
  cases hentry : cache.entries.find? (lower name) with
  | none => rwa [reload_of_unknown hentry]
  | some entry =>
      rcases reload_cases h.wellFormed tree hentry with
        ⟨failure, spans, _, _, hreload⟩ | ⟨table, batch, _, htable, _, hreload⟩
      · rw [hreload]
        exact h.traced spans
      · rw [hreload]
        exact h.withEntry ⟨table.markClean, entry.path⟩ htable.markClean _ _

theorem Synced.apply (h : Synced initial cache) (tree : Tree) (operation : Operation) :
    Synced initial (cache.apply tree operation) :=
  apply_induction (motive := Synced initial) tree
    (fun _ _ h => ⟨h.wellFormed, h.stored, h.others, h.closed⟩)
    (fun _ _ h => ⟨h.wellFormed, h.stored, h.others, h.closed⟩) (fun _ spans h => h.traced spans)
    (fun _ change h => h.handleChange tree change) (fun _ name h => h.reload tree name) h operation

theorem Synced.run (h : Synced initial cache) (steps : List (Tree × Operation)) :
    Synced initial (cache.run steps) := by
  induction steps generalizing cache with
  | nil => exact h
  | cons step rest ih => exact ih (h.apply step.1 step.2)

end Steps

/-! ### What callers see -/

theorem pairwise_tables {cache : Cache} (hcache : cache.WellFormed) (tree : Tree) :
    ((cache.tables tree).1.map fun listed => lower listed.1).Pairwise (· < ·) := by
  set drained := (cache.drain tree).2 with hdrained
  have hformed : drained.WellFormed := wellFormed_drain hcache tree
  have hkeys : (cache.tables tree).1.map (fun listed => lower listed.1) = drained.entries.keys := by
    simp only [tables, NameMap.values, NameMap.keys, List.map_map, ← hdrained]
    refine List.map_congr_left fun found hfound => ?_
    exact (hformed found.1 found.2 (NameMap.find?_eq_some_iff.2 hfound)).1.symm
  rw [hkeys, NameMap.keys, List.pairwise_map]
  exact drained.entries.ascending

/-- What holds between the tables of a cache, its store, and the store as it was before the
cache. -/
structure Agreement (initial : Store) (cache : Cache) : Prop where
  key : ∀ key entry, cache.entries.find? key = some entry → key = lower entry.table.name
  identifier : ∀ key entry, cache.entries.find? key = some entry → IsIdentifier entry.table.name
  nonempty : ∀ key entry, cache.entries.find? key = some entry → entry.table.columns ≠ []
  named : ∀ key entry, cache.entries.find? key = some entry →
    ∀ (position : Nat) (column : Column), entry.table.columns[position]? = some column →
      column.name = entry.table.name ++ "_" ++ toString position
  /-- The store has a table of that name with the columns of the descriptor, in order. -/
  stored : ∀ key entry, cache.entries.find? key = some entry →
    ∃ columns rows,
      cache.connection.contents.relation entry.table.name = .ok (.table columns rows) ∧
      columns.map (fun column => (column.name, column.type)) =
        entry.table.columns.map fun column => (column.name, column.type.sqlType)
  others : ∀ key, cache.entries.find? key = none →
    cache.connection.contents.find? key = initial.find? key
  closed : cache.connection.working = none
  listed : ∀ tree, ((cache.tables tree).1.map fun listed => lower listed.1).Pairwise (· < ·)

theorem Synced.agreement {initial : Store} {cache : Cache} (h : Synced initial cache) :
    Agreement initial cache := by
  have hcontents : cache.connection.contents = cache.connection.committed := by
    simp [Connection.contents, h.closed]
  refine ⟨fun key entry hentry => (h.wellFormed key entry hentry).1,
    fun key entry hentry => (h.wellFormed key entry hentry).2.identifier,
    fun key entry hentry => (h.wellFormed key entry hentry).2.nonempty,
    fun key entry hentry => (h.wellFormed key entry hentry).2.named, ?_, ?_, h.closed,
    pairwise_tables h.wellFormed⟩
  · intro key entry hentry
    obtain ⟨rows, hrows⟩ := h.stored key entry hentry
    rw [(h.wellFormed key entry hentry).1] at hrows
    refine ⟨entry.table.columnDefs, rows, ?_, ?_⟩
    · rw [Store.relation, hcontents, hrows]
    · simp [Descriptor.columnDefs, columnDef]
  · intro key hnone
    rw [hcontents]
    exact h.others key hnone

/-- Whatever is asked of a cache over a store without an open transaction, the two agree. -/
theorem agreement_of_run {connection : Connection} (hclosed : connection.working = none)
    (format : Record.Format) (extension : String) (matching : Settings.Matching)
    (steps : List (Tree × Operation)) :
    Agreement connection.committed ((Cache.new connection format extension matching).run steps) :=
  ((synced_new hclosed format extension matching).run steps).agreement

/-- The engine drops the table of the file and makes none in its place, so that the load fails. -/
theorem agreement_of_run_reload :
    Agreement Connection.inMemory.committed ((Cache.new .inMemory ⟨44, false⟩ "c" .substring).run
      [(oneFile, .change (Watch.changeAt "/a.c" 5)), (oneFile, .engine makesNoTable),
        (oneFile, .refresh ["A"]), (.empty, .execute "SELECT * FROM a")]) ∧
    ((Cache.new .inMemory ⟨44, false⟩ "c" .substring).run
      [(oneFile, .change (Watch.changeAt "/a.c" 5)),
        (oneFile, .engine makesNoTable)]).loading oneFile
        ⟨oneFileTable, "/a.c"⟩ = .error (.engine (.rejected (.nameTaken "a"))) := by
  refine ⟨agreement_of_run rfl ⟨44, false⟩ "c" .substring _, ?_⟩
  have hmade := apply_oneFile .inMemory .substring rfl
  rw [run, List.foldl_cons, hmade]
  exact loading_of_makesNoTable .substring

end Cache

end LiveTables
