import LiveTables.Proofs.CacheRuns

/-!
# Loads are isolated

A load that fails leaves its table and all others as they were. What a set of names makes of one
table, and what is reported about it, are decided by the spellings of that table among the names.
-/

namespace LiveTables

open LiveTables.Engine LiveTables.Files LiveTables.Sql LiveTables.Table LiveTables.Text

namespace Cache

/-! ### Spellings of a name -/

section Spellings

variable (cache : Cache) {name other : String} (h : lower name = lower other)
include h

theorem entry?_congr : cache.entry? name = cache.entry? other := by
  unfold entry?
  rw [h]

theorem isDirty_of_lower_eq : cache.isDirty name = cache.isDirty other := by
  simp only [isDirty, entry?_congr _ h]

theorem reload_of_lower_eq {tree : Tree} (hdirty : cache.isDirty name = true) :
    cache.reload tree name = cache.reload tree other := by
  obtain ⟨entry, hentry, -⟩ := isDirty_iff.1 hdirty
  have hname : cache.entry? name = some entry := hentry
  have hother : cache.entry? other = some entry := by rw [← hname, entry?_congr cache h]
  simp only [reload, hname, hother]

end Spellings

/-! ### Lists of names -/

theorem mem_map_lower_iff {key : String} {names : List String} :
    key ∈ names.map lower ↔ (names.filter fun name => lower name == key) ≠ [] := by
  simp

/-- Loading a list of tables passes over a table, fails on it each time, or loads it once. -/
theorem refreshEach_cases {cache : Cache} (hcache : cache.WellFormed) (tree : Tree)
    (names : List String) (key : String) :
    ((∀ name ∈ names, key = lower name → cache.isDirty name = false) ∧
      AgreesAt key cache (cache.refreshEach tree names).2 ∧
      (cache.refreshEach tree names).1.about key = ⟨[], []⟩) ∨
    (∃ entry, cache.entries.find? key = some entry ∧ entry.table.dirty = true ∧
      ((∃ failure, cache.loading tree entry = .error failure) ∨
        ∃ table batch first spellings, cache.loading tree entry = .ok (table, batch) ∧
          (names.filter fun name => lower name == key) = first :: spellings)) := by
  cases hentry : cache.entries.find? key with
  | none =>
      have hidle : ∀ name ∈ names, key = lower name → cache.isDirty name = false := by
        rintro name _ rfl
        simp [isDirty, entry?, hentry]
      exact Or.inl ⟨hidle, refreshEach_of_idle hcache tree hidle⟩
  | some entry =>
      cases hdirty : entry.table.dirty with
      | false =>
          have hidle : ∀ name ∈ names, key = lower name → cache.isDirty name = false := by
            rintro name _ rfl
            simp [isDirty, entry?, hentry, hdirty]
          exact Or.inl ⟨hidle, refreshEach_of_idle hcache tree hidle⟩
      | true =>
          cases hloading : cache.loading tree entry with
          | error failure => exact Or.inr ⟨entry, rfl, hdirty, Or.inl ⟨failure, hloading⟩⟩
          | ok loaded =>
              obtain ⟨table, batch⟩ := loaded
              cases hnames : names.filter fun name => lower name == key with
              | nil =>
                  have hidle : ∀ name ∈ names, key = lower name → cache.isDirty name = false := by
                    intro name hname hkey
                    rw [List.filter_eq_nil_iff] at hnames
                    exact absurd (by simp [hkey]) (hnames name hname)
                  exact Or.inl ⟨hidle, refreshEach_of_idle hcache tree hidle⟩
              | cons first spellings =>
                  exact Or.inr ⟨entry, rfl, hdirty,
                    Or.inr ⟨table, batch, first, spellings, hloading, rfl⟩⟩

/-- Two lists that both name a table, or both do not, make the same of it. What they report about it
depends on the spellings. -/
theorem refreshEach_of_same_keys {cache : Cache} (hcache : cache.WellFormed) (tree : Tree)
    {names others : List String} {key : String}
    (hsame : key ∈ names.map lower ↔ key ∈ others.map lower) :
    AgreesAt key (cache.refreshEach tree others).2 (cache.refreshEach tree names).2 ∧
      ((names.filter fun name => lower name == key) =
        (others.filter fun name => lower name == key) →
        (cache.refreshEach tree names).1.about key =
          (cache.refreshEach tree others).1.about key) := by
  rcases refreshEach_cases hcache tree names key with
    ⟨hidle, hagrees, habout⟩ | ⟨entry, hentry, hdirty, ⟨failure, hfails⟩ | hloads⟩
  · have hidle' : ∀ name ∈ others, key = lower name → cache.isDirty name = false := by
      rintro other hother rfl
      obtain ⟨name, hname, hlower⟩ := List.mem_map.1 (hsame.2 (List.mem_map_of_mem hother))
      rw [← isDirty_of_lower_eq cache hlower]
      exact hidle name hname hlower.symm
    obtain ⟨hagrees', habout'⟩ := refreshEach_of_idle hcache tree hidle'
    exact ⟨hagrees'.symm.trans hagrees, fun _ => habout.trans habout'.symm⟩
  · have hfirst := refreshEach_of_failing hcache hentry hdirty hfails names
    have hsecond := refreshEach_of_failing hcache hentry hdirty hfails others
    exact ⟨hsecond.1.symm.trans hfirst.1, fun hspellings => by rw [hfirst.2, hsecond.2, hspellings]⟩
  · obtain ⟨table, batch, first, spellings, hloading, hnames⟩ := hloads
    have hkey : key ∈ names.map lower := mem_map_lower_iff.2 (by simp [hnames])
    obtain ⟨first', spellings', hothers⟩ :=
      List.exists_cons_of_ne_nil (mem_map_lower_iff.1 (hsame.1 hkey))
    obtain ⟨hentry₁, hrelation₁, habout₁⟩ :=
      refreshEach_of_loading hcache hentry hdirty hloading hnames
    obtain ⟨hentry₂, hrelation₂, habout₂⟩ :=
      refreshEach_of_loading hcache hentry hdirty hloading hothers
    refine ⟨⟨hentry₁.trans hentry₂.symm, hrelation₁.trans hrelation₂.symm⟩, fun hspellings => ?_⟩
    rw [hnames, hothers, List.cons.injEq] at hspellings
    rw [habout₁, habout₂, hspellings.1]

/-- Two lists with the same spellings of a table make the same of it. -/
theorem refreshEach_of_same_spellings {cache : Cache} (hcache : cache.WellFormed) (tree : Tree)
    {names others : List String} {key : String}
    (hsame : (names.filter fun name => lower name == key) =
      others.filter fun name => lower name == key) :
    (cache.refreshEach tree names).1.about key = (cache.refreshEach tree others).1.about key ∧
      AgreesAt key (cache.refreshEach tree others).2 (cache.refreshEach tree names).2 := by
  have hkeys : key ∈ names.map lower ↔ key ∈ others.map lower := by
    rw [mem_map_lower_iff, mem_map_lower_iff, hsame]
  obtain ⟨hagrees, habout⟩ := refreshEach_of_same_keys hcache tree hkeys
  exact ⟨habout hsame, hagrees⟩

/-! ### Reports -/

theorem refreshEach_of_mem_failed {cache : Cache} (hcache : cache.WellFormed) {tree : Tree}
    {names : List String} {name : String} {failure : Failure}
    (h : (name, failure) ∈ (cache.refreshEach tree names).1.failed) :
    ∃ entry, cache.entries.find? (lower name) = some entry ∧ entry.table.dirty = true ∧
      cache.loading tree entry = .error failure ∧
      AgreesAt (lower name) cache (cache.refreshEach tree names).2 := by
  have habout : (name, failure) ∈ ((cache.refreshEach tree names).1.about (lower name)).failed :=
    List.mem_filter.2 ⟨h, by simp⟩
  rcases refreshEach_cases hcache tree names (lower name) with
    ⟨_, _, hnothing⟩ | ⟨entry, hentry, hdirty, ⟨cause, hfails⟩ | hloads⟩
  · simp [hnothing] at habout
  · obtain ⟨hagrees, hfailed⟩ := refreshEach_of_failing hcache hentry hdirty hfails names
    rw [hfailed] at habout
    obtain ⟨spelling, _, hspelling⟩ := List.mem_map.1 habout
    obtain rfl : cause = failure := (Prod.mk.inj hspelling).2
    exact ⟨entry, hentry, hdirty, hfails, hagrees⟩
  · obtain ⟨table, batch, first, spellings, hloading, hnames⟩ := hloads
    simp [(refreshEach_of_loading hcache hentry hdirty hloading hnames).2.2] at habout

theorem refreshEach_of_mem_reloaded {cache : Cache} (hcache : cache.WellFormed) {tree : Tree}
    {names : List String} {name : String} {count : Nat}
    (h : (name, count) ∈ (cache.refreshEach tree names).1.reloaded) :
    ∃ entry table batch, cache.entries.find? (lower name) = some entry ∧ entry.table.dirty = true ∧
      cache.loading tree entry = .ok (table, batch) ∧ count = batch.rows.length ∧
      (cache.refreshEach tree names).2.entries.find? (lower name) =
        some ⟨table.markClean, entry.path⟩ ∧
      (cache.refreshEach tree names).2.relation? (lower name) =
        some (.table table.columnDefs batch.rows) := by
  have habout : (name, count) ∈ ((cache.refreshEach tree names).1.about (lower name)).reloaded :=
    List.mem_filter.2 ⟨h, by simp⟩
  rcases refreshEach_cases hcache tree names (lower name) with
    ⟨_, _, hnothing⟩ | ⟨entry, hentry, hdirty, ⟨cause, hfails⟩ | hloads⟩
  · simp [hnothing] at habout
  · simp [(refreshEach_of_failing hcache hentry hdirty hfails names).2] at habout
  · obtain ⟨table, batch, first, spellings, hloading, hnames⟩ := hloads
    obtain ⟨hafter, hrelation, hreloaded⟩ :=
      refreshEach_of_loading hcache hentry hdirty hloading hnames
    simp only [hreloaded, List.mem_singleton, Prod.mk.injEq] at habout
    exact ⟨entry, table, batch, hentry, hdirty, hloading, habout.2, hafter, hrelation⟩

theorem length_reloaded_about_le_one {cache : Cache} (hcache : cache.WellFormed) (tree : Tree)
    (names : List String) (key : String) :
    ((cache.refreshEach tree names).1.about key).reloaded.length ≤ 1 := by
  rcases refreshEach_cases hcache tree names key with
    ⟨_, _, hnothing⟩ | ⟨entry, hentry, hdirty, ⟨failure, hfails⟩ | hloads⟩
  · simp [hnothing]
  · simp [(refreshEach_of_failing hcache hentry hdirty hfails names).2]
  · obtain ⟨table, batch, first, spellings, hloading, hnames⟩ := hloads
    simp [(refreshEach_of_loading hcache hentry hdirty hloading hnames).2.2]

theorem nodup_reloaded {cache : Cache} (hcache : cache.WellFormed) (tree : Tree)
    (names : List String) :
    ((cache.refreshEach tree names).1.reloaded.map fun loaded => lower loaded.1).Nodup := by
  rw [List.nodup_iff_count_le_one]
  intro key
  have hlength := length_reloaded_about_le_one hcache tree names key
  rw [List.count, List.countP_map, List.countP_eq_length_filter]
  exact hlength

theorem about_refreshEach_singleton (cache : Cache) (tree : Tree) (name : String) :
    (cache.refreshEach tree [name]).1.about (lower name) = (cache.refreshEach tree [name]).1 := by
  cases hdirty : cache.isDirty name with
  | false => simp [refreshEach, hdirty, Report.about]
  | true =>
      cases hreload : cache.reload tree name with
      | mk outcome after =>
          cases outcome <;> simp [refreshEach, hdirty, hreload, Report.about]

theorem filter_nameSet_of_one_spelling {names : List String} {name : String} (hname : name ∈ names)
    (hone : ∀ other ∈ names, lower other = lower name → other = name) :
    ((nameSet names).filter fun other => lower other == lower name) = [name] := by
  have hperm : ((nameSet names).filter fun other => lower other == lower name).Perm [name] := by
    rw [List.perm_ext_iff_of_nodup ((nodup_nameSet names).filter _) (List.nodup_singleton name)]
    intro other
    simp only [List.mem_filter, mem_nameSet, beq_iff_eq, List.mem_singleton]
    constructor
    · rintro ⟨hother, hlower⟩
      exact hone other hother hlower
    · rintro rfl
      exact ⟨hname, rfl⟩
  exact List.perm_singleton.1 hperm

/-! ### The contract of a refresh -/

/-- What loading a set of names promises about each table. -/
structure IsolatedRefresh (cache : Cache) (tree : Tree) (names : List String) : Prop where
  /-- A table whose load fails was dirty, and has the entry and the relation that it had. -/
  failed : ∀ name failure, (name, failure) ∈ (cache.ensureFresh tree names).1.failed →
    (∃ entry, cache.entries.find? (lower name) = some entry ∧ entry.table.dirty = true) ∧
      AgreesAt (lower name) cache (cache.ensureFresh tree names).2
  /-- A table that is named in one spelling is reported and left as if it had been named alone. -/
  alone : ∀ name ∈ names, (∀ other ∈ names, lower other = lower name → other = name) →
    (cache.ensureFresh tree names).1.about (lower name) = (cache.ensureFresh tree [name]).1 ∧
      AgreesAt (lower name) (cache.ensureFresh tree [name]).2 (cache.ensureFresh tree names).2
  once : ((cache.ensureFresh tree names).1.reloaded.map fun loaded => lower loaded.1).Nodup
  /-- A name that is not in the set, or is unknown or clean, is not touched and not reported. -/
  idle : ∀ key, (∀ name ∈ names, lower name = key → ∀ entry, cache.entries.find? key = some entry →
      entry.table.dirty = false) →
    AgreesAt key cache (cache.ensureFresh tree names).2 ∧
      (cache.ensureFresh tree names).1.about key = ⟨[], []⟩

theorem isolatedRefresh_of_reachable {cache : Cache} (hreachable : cache.Reachable) (tree : Tree)
    (names : List String) : IsolatedRefresh cache tree names := by
  have hcache := hreachable.wellFormed
  refine ⟨?_, ?_, nodup_reloaded hcache tree _, ?_⟩
  · intro name failure hfailed
    obtain ⟨entry, hentry, hdirty, _, hagrees⟩ := refreshEach_of_mem_failed hcache hfailed
    exact ⟨⟨entry, hentry, hdirty⟩, hagrees⟩
  · intro name hname hone
    have hfilter := filter_nameSet_of_one_spelling hname hone
    have hsingle : nameSet [name] = [name] := rfl
    have halone : ((nameSet [name]).filter fun other => lower other == lower name) = [name] := by
      simp [hsingle]
    obtain ⟨habout, hagrees⟩ :=
      refreshEach_of_same_spellings hcache tree (hfilter.trans halone.symm)
    refine ⟨habout.trans ?_, hagrees⟩
    rw [ensureFresh, hsingle]
    exact about_refreshEach_singleton cache tree name
  · intro key hclean
    refine refreshEach_of_idle hcache tree ?_
    intro name hname hkey
    rw [Bool.eq_false_iff]
    intro hdirty
    obtain ⟨entry, hentry, hdirty⟩ := isDirty_iff.1 hdirty
    rw [hclean name (mem_nameSet.1 hname) hkey.symm entry (hkey ▸ hentry)] at hdirty
    exact Bool.false_ne_true hdirty

/-- The engine drops the table of the file and makes none in its place: the load fails for each
spelling, and the table is there as before. -/
theorem isolatedRefresh_of_one_file : ∃ cache, cache.Reachable ∧
    cache.relation? "a" = some (.table oneFileTable.columnDefs []) ∧
    IsolatedRefresh cache oneFile ["a", "A", "b"] ∧
    (cache.ensureFresh oneFile ["a", "A", "b"]).1.about "a" =
      ⟨[], [("A", .engine (.rejected (.nameTaken "a"))),
        ("a", .engine (.rejected (.nameTaken "a")))]⟩ := by
  have hreachable : ((ofOneFile .inMemory .substring).withRefusals makesNoTable).Reachable :=
    .operation oneFile (.engine makesNoTable) (reachable_ofOneFile .inMemory .substring rfl)
  have hspellings :
      ((nameSet ["a", "A", "b"]).filter fun name => lower name == "a") = ["A", "a"] := by decide
  have hfails := refreshEach_of_failing hreachable.wellFormed
    (entry_ofOneFile .inMemory .substring) rfl (loading_of_makesNoTable .substring)
    (nameSet ["a", "A", "b"])
  rw [hspellings] at hfails
  exact ⟨_, hreachable, NameMap.find?_insert_self _ _ _,
    isolatedRefresh_of_reachable hreachable oneFile ["a", "A", "b"], hfails.2⟩

end Cache

end LiveTables
