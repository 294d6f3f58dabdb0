import LiveTables.Proofs.CacheSteps

/-!
# Loading many tables

What loading a list of tables makes of each of them depends on that table alone: its entry, its
relation and its file. Tables that are loaded before it do not count, whether their loads succeed or
fail.
-/

namespace LiveTables

open LiveTables.Engine LiveTables.Files LiveTables.Sql LiveTables.Table LiveTables.Text

namespace Cache

/-! ### One load -/

theorem refusal?_congr {cache after : Cache} (hframe : Frame cache after) {table : Descriptor}
    (hagrees : AgreesAt (lower table.name) cache after) (rows : List (List Value)) :
    refusal? after.connection table rows = refusal? cache.connection table rows := by
  have hrelation := hagrees.relation
  have hworking := hframe.working
  unfold refusal?
  rw [hworking, hframe.refusals]
  cases hopen : cache.connection.working with
  | some store => rfl
  | none =>
      rw [hopen] at hworking
      simp only [relation?, Connection.contents, hworking, hopen, Option.getD_none] at hrelation
      rw [hrelation]

theorem freshTable_congr {cache after : Cache} (hformat : after.format = cache.format) (tree : Tree)
    (entry : Entry) : after.freshTable tree entry = cache.freshTable tree entry := by
  rw [freshTable, freshTable, hformat]

theorem readBatch_congr {cache after : Cache} (hformat : after.format = cache.format) (tree : Tree)
    (path : String) (table : Descriptor) :
    after.readBatch tree path table = cache.readBatch tree path table := by
  rw [readBatch, readBatch, hformat]

theorem loading_congr {cache after : Cache} (hframe : Frame cache after) (tree : Tree)
    {entry : Entry} (hformed : entry.table.WellFormed)
    (hagrees : AgreesAt (lower entry.table.name) cache after) :
    after.loading tree entry = cache.loading tree entry := by
  unfold loading
  rw [freshTable_congr hframe.format]
  cases hfresh : cache.freshTable tree entry with
  | error failure => rfl
  | ok table =>
      have hname := (wellFormed_of_freshTable hformed hfresh).2
      dsimp only
      rw [readBatch_congr hframe.format]
      cases cache.readBatch tree entry.path table with
      | error failure => rfl
      | ok batch =>
          dsimp only
          rw [refusal?_congr hframe (hname ▸ hagrees)]

theorem isDirty_iff {cache : Cache} {name : String} : cache.isDirty name = true ↔
    ∃ entry, cache.entries.find? (lower name) = some entry ∧ entry.table.dirty = true := by
  unfold isDirty entry?
  cases cache.entries.find? (lower name) <;> simp

theorem isDirty_congr {cache after : Cache} {name : String}
    (hagrees : AgreesAt (lower name) cache after) : after.isDirty name = cache.isDirty name := by
  rw [isDirty, isDirty, entry?, entry?, hagrees.entry]

/-- What a load can do: nothing but trace, or put a table of its name in place. -/
theorem reload_cases {cache : Cache} (hcache : cache.WellFormed) (tree : Tree) {name : String}
    {entry : Entry} (hentry : cache.entries.find? (lower name) = some entry) :
    (∃ failure spans, cache.loading tree entry = .error failure ∧ Quiet spans ∧
      cache.reload tree name = (.error failure, cache.traced spans)) ∨
    (∃ table batch, cache.loading tree entry = .ok (table, batch) ∧ table.WellFormed ∧
      table.name = entry.table.name ∧
      cache.reload tree name = (.ok batch.rows.length,
        cache.withEntry ⟨table.markClean, entry.path⟩ batch.rows
          (fillSpans table batch.rows))) := by
  cases h : cache.loading tree entry with
  | error failure =>
      obtain ⟨spans, hquiet, hreload⟩ := reload_of_loading_error hcache hentry h
      exact Or.inl ⟨failure, spans, rfl, hquiet, hreload⟩
  | ok loaded =>
      obtain ⟨table, batch⟩ := loaded
      have hfresh := (loading_eq_ok_iff.1 h).1
      obtain ⟨htable, hname⟩ := wellFormed_of_freshTable (hcache _ _ hentry).2 hfresh
      exact Or.inr ⟨table, batch, rfl, htable, hname, reload_of_loading_ok hcache hentry h⟩

section Reload

variable {cache : Cache} {tree : Tree} {name : String}

theorem wellFormed_reload (hcache : cache.WellFormed) (tree : Tree) (name : String) :
    (cache.reload tree name).2.WellFormed := by
  cases hentry : cache.entries.find? (lower name) with
  | none => rwa [reload_of_unknown hentry]
  | some entry =>
      rcases reload_cases hcache tree hentry with
        ⟨failure, spans, _, _, hreload⟩ | ⟨table, batch, _, htable, _, hreload⟩
      · rw [hreload]
        exact hcache.traced spans
      · rw [hreload]
        exact hcache.withEntry ⟨table.markClean, entry.path⟩ htable.markClean _ _

theorem frame_reload (hcache : cache.WellFormed) (tree : Tree) (name : String) :
    Frame cache (cache.reload tree name).2 := by
  cases hentry : cache.entries.find? (lower name) with
  | none =>
      rw [reload_of_unknown hentry]
      exact Frame.refl cache
  | some entry =>
      rcases reload_cases hcache tree hentry with
        ⟨failure, spans, _, hquiet, hreload⟩ | ⟨table, batch, _, _, _, hreload⟩
      · rw [hreload]
        exact frame_traced cache hquiet
      · rw [hreload]
        exact frame_withEntry cache _ _ (quiet_fillSpans table batch.rows)

theorem agreesAt_reload_of_ne (hcache : cache.WellFormed) (tree : Tree) {key : String}
    (hne : key ≠ lower name) : AgreesAt key cache (cache.reload tree name).2 := by
  cases hentry : cache.entries.find? (lower name) with
  | none =>
      rw [reload_of_unknown hentry]
      exact AgreesAt.refl key cache
  | some entry =>
      rcases reload_cases hcache tree hentry with
        ⟨failure, spans, _, _, hreload⟩ | ⟨table, batch, _, _, hname, hreload⟩
      · rw [hreload]
        exact agreesAt_traced key cache spans
      · rw [hreload]
        have hkey : lower name = lower table.name := by
          rw [hname]
          exact (hcache _ _ hentry).1
        exact agreesAt_withEntry cache _ _ (hkey ▸ hne)

end Reload

/-! ### Lists of loads -/

/-- The part of a report that is about the table of a key. -/
def Report.about (report : Report) (key : String) : Report where
  reloaded := report.reloaded.filter fun loaded => lower loaded.1 == key
  failed := report.failed.filter fun failed => lower failed.1 == key

def Report.withReloaded (report : Report) (name : String) (count : Nat) : Report :=
  { report with reloaded := (name, count) :: report.reloaded }

def Report.withFailed (report : Report) (name : String) (failure : Failure) : Report :=
  { report with failed := (name, failure) :: report.failed }

theorem refreshEach_cons_of_clean {cache : Cache} {tree : Tree} {name : String} {rest : List String}
    (h : cache.isDirty name = false) :
    cache.refreshEach tree (name :: rest) = cache.refreshEach tree rest := by
  simp [refreshEach, h]

theorem refreshEach_cons_of_ok {cache after : Cache} {tree : Tree} {name : String}
    {rest : List String} {count : Nat} (hdirty : cache.isDirty name = true)
    (h : cache.reload tree name = (.ok count, after)) :
    cache.refreshEach tree (name :: rest) =
      ((after.refreshEach tree rest).1.withReloaded name count,
        (after.refreshEach tree rest).2) := by
  simp [refreshEach, hdirty, h, Report.withReloaded]

theorem refreshEach_cons_of_error {cache after : Cache} {tree : Tree} {name : String}
    {rest : List String} {failure : Failure} (hdirty : cache.isDirty name = true)
    (h : cache.reload tree name = (.error failure, after)) :
    cache.refreshEach tree (name :: rest) =
      ((after.refreshEach tree rest).1.withFailed name failure,
        (after.refreshEach tree rest).2) := by
  simp [refreshEach, hdirty, h, Report.withFailed]

/-- The cache after one name of a list: loaded if its table is dirty, and left alone if not. -/
def refreshOne (cache : Cache) (tree : Tree) (name : String) : Cache :=
  if cache.isDirty name then (cache.reload tree name).2 else cache

theorem refreshEach_cons_snd (cache : Cache) (tree : Tree) (name : String) (rest : List String) :
    (cache.refreshEach tree (name :: rest)).2 =
      ((cache.refreshOne tree name).refreshEach tree rest).2 := by
  unfold refreshOne
  cases hdirty : cache.isDirty name with
  | false => simp [refreshEach_cons_of_clean hdirty]
  | true =>
      cases hreload : cache.reload tree name with
      | mk outcome after =>
          cases outcome with
          | ok count => simp [refreshEach_cons_of_ok hdirty hreload]
          | error failure => simp [refreshEach_cons_of_error hdirty hreload]

theorem wellFormed_refreshOne {cache : Cache} (hcache : cache.WellFormed) (tree : Tree)
    (name : String) : (cache.refreshOne tree name).WellFormed := by
  unfold refreshOne
  split_ifs
  · exact wellFormed_reload hcache tree name
  · exact hcache

theorem frame_refreshOne {cache : Cache} (hcache : cache.WellFormed) (tree : Tree) (name : String) :
    Frame cache (cache.refreshOne tree name) := by
  unfold refreshOne
  split_ifs
  · exact frame_reload hcache tree name
  · exact Frame.refl cache

theorem agreesAt_refreshOne_of_ne {cache : Cache} (hcache : cache.WellFormed) (tree : Tree)
    {key name : String} (hne : key ≠ lower name) :
    AgreesAt key cache (cache.refreshOne tree name) := by
  unfold refreshOne
  split_ifs
  · exact agreesAt_reload_of_ne hcache tree hne
  · exact AgreesAt.refl key cache

/-- What each load keeps, a list of loads keeps. -/
theorem refreshEach_induction {motive : Cache → Prop} (tree : Tree)
    (hreload : ∀ cache name, motive cache → motive (cache.reload tree name).2) {cache : Cache}
    (h : motive cache) (names : List String) : motive (cache.refreshEach tree names).2 := by
  induction names generalizing cache with
  | nil => exact h
  | cons name rest ih =>
      rw [refreshEach_cons_snd]
      refine ih ?_
      unfold refreshOne
      split_ifs
      · exact hreload cache name h
      · exact h

theorem frame_refreshEach {cache : Cache} (hcache : cache.WellFormed) (tree : Tree)
    (names : List String) : Frame cache (cache.refreshEach tree names).2 := by
  induction names generalizing cache with
  | nil => exact Frame.refl cache
  | cons name rest ih =>
      rw [refreshEach_cons_snd]
      exact (frame_refreshOne hcache tree name).trans (ih (wellFormed_refreshOne hcache tree name))

/-! ### What a list makes of one table -/

theorem about_withReloaded_of_ne (report : Report) {key name : String} (hne : key ≠ lower name)
    (count : Nat) : (report.withReloaded name count).about key = report.about key := by
  simp [Report.about, Report.withReloaded, hne.symm]

theorem about_withFailed_of_ne (report : Report) {key name : String} (hne : key ≠ lower name)
    (failure : Failure) : (report.withFailed name failure).about key = report.about key := by
  simp [Report.about, Report.withFailed, hne.symm]

theorem about_refreshEach_cons_of_ne (cache : Cache) (tree : Tree) {key name : String}
    (hne : key ≠ lower name) (rest : List String) :
    (cache.refreshEach tree (name :: rest)).1.about key =
      ((cache.refreshOne tree name).refreshEach tree rest).1.about key := by
  unfold refreshOne
  cases hdirty : cache.isDirty name with
  | false => simp [refreshEach_cons_of_clean hdirty]
  | true =>
      cases hreload : cache.reload tree name with
      | mk outcome after =>
          cases outcome with
          | ok count =>
              simp [refreshEach_cons_of_ok hdirty hreload, about_withReloaded_of_ne _ hne]
          | error failure =>
              simp [refreshEach_cons_of_error hdirty hreload, about_withFailed_of_ne _ hne]

section OneTable

variable {cache : Cache} {tree : Tree} {key : String}

/-- A table that is not named, or is not dirty, is neither touched nor reported. -/
theorem refreshEach_of_idle (hcache : cache.WellFormed) (tree : Tree) {names : List String}
    (hidle : ∀ name ∈ names, key = lower name → cache.isDirty name = false) :
    AgreesAt key cache (cache.refreshEach tree names).2 ∧
      (cache.refreshEach tree names).1.about key = ⟨[], []⟩ := by
  induction names generalizing cache with
  | nil => exact ⟨AgreesAt.refl key cache, rfl⟩
  | cons name rest ih =>
      by_cases hkey : key = lower name
      · rw [refreshEach_cons_of_clean (hidle name List.mem_cons_self hkey)]
        exact ih hcache fun other hother => hidle other (List.mem_cons_of_mem _ hother)
      · have hfirst := agreesAt_refreshOne_of_ne hcache tree hkey
        have hrest := ih (wellFormed_refreshOne hcache tree name) fun other hother hother' => by
          rw [isDirty_congr (hother' ▸ hfirst)]
          exact hidle other (List.mem_cons_of_mem _ hother) hother'
        rw [refreshEach_cons_snd, about_refreshEach_cons_of_ne cache tree hkey]
        exact ⟨hfirst.trans hrest.1, hrest.2⟩

variable {entry : Entry}

/-- A table that cannot be loaded stays as it is, and every spelling of it is reported to fail. -/
theorem refreshEach_of_failing (hcache : cache.WellFormed)
    (hentry : cache.entries.find? key = some entry) (hdirty : entry.table.dirty = true)
    {failure : Failure} (hfails : cache.loading tree entry = .error failure) (names : List String) :
    AgreesAt key cache (cache.refreshEach tree names).2 ∧
      (cache.refreshEach tree names).1.about key =
        ⟨[], (names.filter fun name => lower name == key).map fun name => (name, failure)⟩ := by
  obtain ⟨hkey, hformed⟩ := hcache key entry hentry
  induction names generalizing cache with
  | nil => exact ⟨AgreesAt.refl key cache, rfl⟩
  | cons name rest ih =>
      by_cases hname : key = lower name
      · have hisDirty : cache.isDirty name = true :=
          isDirty_iff.2 ⟨entry, hname ▸ hentry, hdirty⟩
        rcases reload_cases hcache tree (hname ▸ hentry) with
          ⟨cause, spans, hcause, hquiet, hreload⟩ | ⟨table, batch, hloads, _⟩
        · obtain rfl : cause = failure := by simpa [hfails] using hcause.symm
          -- only the trace has grown, so the load fails for the next spelling as well
          have htraced := agreesAt_traced key cache spans
          have hagain : (cache.traced spans).loading tree entry = .error cause := by
            rw [loading_congr (frame_traced cache hquiet) tree hformed (hkey ▸ htraced), hfails]
          have hrest := ih (hcache.traced spans) hentry hagain
          rw [refreshEach_cons_of_error hisDirty hreload]
          refine ⟨htraced.trans hrest.1, ?_⟩
          have habout := hrest.2
          simp only [Report.about, Report.mk.injEq] at habout
          simp [Report.about, Report.withFailed, ← hname, habout.1, habout.2]
        · simp [hfails] at hloads
      · have hfirst := agreesAt_refreshOne_of_ne hcache tree hname
        have hentry' := hfirst.entry.trans hentry
        have hagain : (cache.refreshOne tree name).loading tree entry = .error failure := by
          rw [loading_congr (frame_refreshOne hcache tree name) tree hformed (hkey ▸ hfirst),
            hfails]
        have hrest := ih (wellFormed_refreshOne hcache tree name) hentry' hagain
        rw [refreshEach_cons_snd, about_refreshEach_cons_of_ne cache tree hname]
        refine ⟨hfirst.trans hrest.1, hrest.2.trans ?_⟩
        simp [Ne.symm hname]

/-- A table that has been loaded is clean and holds the rows of the batch. -/
theorem reload_of_loading (hcache : cache.WellFormed) {name : String}
    (hentry : cache.entries.find? (lower name) = some entry) {table : Descriptor} {batch : Batch}
    (hloads : cache.loading tree entry = .ok (table, batch)) :
    ∃ after, cache.reload tree name = (.ok batch.rows.length, after) ∧ after.WellFormed ∧
      after.entries.find? (lower name) = some ⟨table.markClean, entry.path⟩ ∧
      after.relation? (lower name) = some (.table table.columnDefs batch.rows) := by
  obtain ⟨hkey, hformed⟩ := hcache _ entry hentry
  obtain ⟨hfresh, _, hrefusal⟩ := loading_eq_ok_iff.1 hloads
  obtain ⟨htable, hname⟩ := wellFormed_of_freshTable hformed hfresh
  refine ⟨_, reload_of_loading_ok hcache hentry hloads, hcache.withEntry _ htable.markClean _ _,
    ?_, ?_⟩
  · rw [hkey, ← hname]
    exact NameMap.find?_insert_self _ _ _
  · rw [hkey, ← hname]
    exact withEntry_relation?_self cache ⟨table.markClean, entry.path⟩ batch.rows _
      (working_of_refusal?_eq_none hrefusal)

/-- A table that can be loaded is loaded once, for the first of its spellings. -/
theorem refreshEach_of_loading (hcache : cache.WellFormed)
    (hentry : cache.entries.find? key = some entry) (hdirty : entry.table.dirty = true)
    {table : Descriptor} {batch : Batch} (hloads : cache.loading tree entry = .ok (table, batch))
    {names spellings : List String} {first : String}
    (hnames : (names.filter fun name => lower name == key) = first :: spellings) :
    (cache.refreshEach tree names).2.entries.find? key = some ⟨table.markClean, entry.path⟩ ∧
      (cache.refreshEach tree names).2.relation? key = some (.table table.columnDefs batch.rows) ∧
      (cache.refreshEach tree names).1.about key = ⟨[(first, batch.rows.length)], []⟩ := by
  obtain ⟨hkey, hformed⟩ := hcache key entry hentry
  induction names generalizing cache with
  | nil => simp at hnames
  | cons name rest ih =>
      by_cases hname : key = lower name
      · obtain rfl : name = first := by simpa [← hname] using congrArg List.head? hnames
        have hisDirty : cache.isDirty name = true :=
          isDirty_iff.2 ⟨entry, hname ▸ hentry, hdirty⟩
        obtain ⟨after, hreload, hafter, hafterEntry, hafterRelation⟩ :=
          reload_of_loading hcache (hname ▸ hentry) hloads
        rw [← hname] at hafterEntry hafterRelation
        -- the table is clean now, so the other spellings are passed over
        have hclean : ∀ other ∈ rest, key = lower other → after.isDirty other = false := by
          intro other _ hother
          rw [Bool.eq_false_iff]
          intro hisDirty
          obtain ⟨found, hfound, hfoundDirty⟩ := isDirty_iff.1 hisDirty
          rw [← hother, hafterEntry, Option.some.injEq] at hfound
          subst hfound
          exact absurd hfoundDirty Bool.false_ne_true
        obtain ⟨hagrees, habout⟩ := refreshEach_of_idle hafter tree hclean
        rw [refreshEach_cons_of_ok hisDirty hreload]
        refine ⟨hagrees.entry.trans hafterEntry, hagrees.relation.trans hafterRelation, ?_⟩
        simp only [Report.about, Report.mk.injEq] at habout
        simp [Report.about, Report.withReloaded, ← hname, habout.1, habout.2]
      · have hfirst := agreesAt_refreshOne_of_ne hcache tree hname
        have hentry' := hfirst.entry.trans hentry
        have hagain : (cache.refreshOne tree name).loading tree entry = .ok (table, batch) := by
          rw [loading_congr (frame_refreshOne hcache tree name) tree hformed (hkey ▸ hfirst),
            hloads]
        have hrest := ih (wellFormed_refreshOne hcache tree name) hentry' hagain
          (by simpa [Ne.symm hname] using hnames)
        rw [refreshEach_cons_snd, about_refreshEach_cons_of_ne cache tree hname]
        exact hrest

end OneTable

end Cache

end LiveTables
