import LiveTables.Proofs.QueryContract

/-!
# What becomes of the tables of a cache

A log of what a cache does to its tables, in order: they are made, marked, loaded, or fail to load.
Whether a table is dirty can be read off the log: it is clean exactly when a load came last. A table
is loaded only while it is dirty, so a mark is good for one load, and a load that fails leaves the
mark to the next query.
-/

namespace LiveTables

open LiveTables.Engine LiveTables.Files LiveTables.Sql LiveTables.Table LiveTables.Text
open LiveTables.Watch

namespace Cache

inductive Happening where
  | created
  | marked
  | loaded
  | failed
  deriving DecidableEq

/-- Something that happens to the table of a key. -/
structure Event where
  key : String
  happening : Happening
  deriving DecidableEq

def Happening.ofChange? : Except Failure ChangeOutcome → Option Happening
  | .ok .created => some .created
  | .ok .markedDirty => some .marked
  | .ok .skipped | .error _ => none

def Happening.ofLoad : Except Failure Nat → Happening
  | .ok _ => .loaded
  | .error _ => .failed

section Events

variable (cache : Cache) (tree : Tree)

def changeEvents (change : Change) : List Event :=
  ((keyOf? cache.extension change).bind fun key =>
    (Happening.ofChange? (cache.handleChange tree change).1).map (Event.mk key)).toList

def loadEvent (name : String) : Event :=
  ⟨lower name, .ofLoad (cache.reload tree name).1⟩

end Events

def eventRecorder : Recorder Event where
  ofChange := changeEvents
  ofLoad cache tree name := [cache.loadEvent tree name]

/-- What happens to the tables in an operation, in order. -/
def events (cache : Cache) (tree : Tree) (operation : Operation) : List Event :=
  eventRecorder.ofOperation cache tree operation

/-- The caches that operations lead to, with the log of what has happened to their tables. -/
inductive History : Cache → List Event → Prop
  | new (connection : Connection) (format : Record.Format) (extension : String)
      (matching : Settings.Matching) : History (.new connection format extension matching) []
  | operation {cache : Cache} {log : List Event} (tree : Tree) (operation : Operation) :
      History cache log → History (cache.apply tree operation) (log ++ cache.events tree operation)
  | statement {cache : Cache} {log : List Event} (text : String) : History cache log →
      History { cache with connection := (cache.connection.runBatch text).2 } log

/-- What happened last to the table of a key, loads that failed apart. -/
def latest? (log : List Event) (key : String) : Option Happening :=
  ((log.filter fun event => event.key == key && event.happening != .failed).getLast?).map
    (·.happening)

/-- What may happen to a table after what happened last. -/
def Happening.Follows (last : Option Happening) : Happening → Prop
  | .created => last = none
  | .marked => last ≠ none
  | .loaded | .failed => last = some .created ∨ last = some .marked

/-- Everything in a log may happen where it stands. -/
def Lawful (log : List Event) : Prop :=
  ∀ before event after, log = before ++ event :: after →
    event.happening.Follows (latest? before event.key)

/-! ### Logs -/

section Logs

variable {log more before between after : List Event} {key : String} {happening : Happening}

theorem latest?_append : latest? (log ++ more) key = (latest? more key).or (latest? log key) := by
  simp only [latest?, List.filter_append, List.getLast?_append, Option.map_or]

theorem latest?_singleton (event : Event) : latest? [event] key =
    if event.key = key ∧ event.happening ≠ .failed then some event.happening else none := by
  by_cases h : event.key = key ∧ event.happening ≠ .failed
  · simp [latest?, h]
  · simp only [latest?, if_neg h]
    rw [not_and_or] at h
    rcases h with h | h <;> simp [h]

theorem exists_of_latest? (h : latest? log key = some happening) :
    ⟨key, happening⟩ ∈ log ∧ happening ≠ .failed := by
  unfold latest? at h
  obtain ⟨event, hevent, rfl⟩ := Option.map_eq_some_iff.1 h
  have hmem := List.mem_filter.1 (List.mem_of_getLast? hevent)
  simp only [Bool.and_eq_true, beq_iff_eq, bne_iff_ne] at hmem
  obtain ⟨hmem, rfl, hne⟩ := hmem
  exact ⟨hmem, hne⟩

theorem latest?_ne_none (h : ⟨key, happening⟩ ∈ log) (hne : happening ≠ .failed) :
    latest? log key ≠ none := by
  simp only [latest?, ne_eq, Option.map_eq_none_iff, List.getLast?_eq_none_iff,
    List.filter_eq_nil_iff, not_forall]
  exact ⟨_, h, by simp [hne]⟩

theorem lawful_nil : Lawful [] := by
  intro before event after h
  simp at h

theorem Lawful.concat (h : Lawful log) {event : Event}
    (hevent : event.happening.Follows (latest? log event.key)) : Lawful (log ++ [event]) := by
  intro before other after hlog
  rcases List.eq_nil_or_concat after with rfl | ⟨init, last, rfl⟩
  · obtain ⟨rfl, heq⟩ := List.append_inj' hlog rfl
    obtain rfl := List.singleton_injective heq
    exact hevent
  · rw [List.concat_eq_append, ← List.cons_append, ← List.append_assoc] at hlog
    exact h before other init (List.append_inj' hlog rfl).1

theorem Lawful.count_loaded_le_one (h : Lawful (before ++ between ++ after))
    (hcreated : ⟨key, .created⟩ ∉ between) (hmarked : ⟨key, .marked⟩ ∉ between) :
    between.count ⟨key, .loaded⟩ ≤ 1 := by
  -- events are taken off the end, since it is the log in front of an event that it has to follow
  induction between using List.reverseRecOn generalizing after with
  | nil => simp
  | append_singleton init last ih =>
      simp only [List.mem_append, not_or] at hcreated hmarked
      have hsplit : before ++ (init ++ [last]) ++ after = before ++ init ++ last :: after := by simp
      rw [hsplit] at h
      by_cases hlast : last = ⟨key, .loaded⟩
      · subst hlast
        have hfollows := h (before ++ init) _ after rfl
        -- an earlier load would be the latest event, and no load follows a load
        have hnotMem : ⟨key, .loaded⟩ ∉ init := by
          intro hmem
          obtain ⟨happening, hlatest⟩ :=
            Option.ne_none_iff_exists'.1 (latest?_ne_none hmem (by decide))
          obtain ⟨hmem, hne⟩ := exists_of_latest? hlatest
          rw [latest?_append, hlatest] at hfollows
          rcases hfollows with heq | heq <;> obtain rfl := Option.some.inj heq
          · exact hcreated.1 hmem
          · exact hmarked.1 hmem
        simp [List.count_eq_zero_of_not_mem hnotMem]
      · have hcount := ih h hcreated.1 hmarked.1
        rwa [List.count_append, List.count_singleton, if_neg (by simpa using hlast), add_zero]

/-- A load that fails leaves its table marked until a load succeeds. -/
theorem Lawful.latest?_of_failed (h : Lawful (before ++ ⟨key, .failed⟩ :: after))
    (hafter : ⟨key, .loaded⟩ ∉ after) :
    ∃ last, latest? (before ++ ⟨key, .failed⟩ :: after) key = some last ∧ last ≠ .loaded := by
  have hfollows := h before _ after rfl
  rw [List.append_cons, latest?_append, latest?_append, latest?_singleton, if_neg (by simp),
    Option.none_or]
  cases hlatest : latest? after key with
  | none =>
      rcases hfollows with heq | heq <;> exact ⟨_, by simpa using heq, by decide⟩
  | some last =>
      refine ⟨last, rfl, ?_⟩
      rintro rfl
      exact hafter (exists_of_latest? hlatest).1

end Logs

/-! ### Steps with their events -/

theorem changeEvents_cases (cache : Cache) (tree : Tree) (change : Change) :
    (∃ spans, cache.changeEvents tree change = [] ∧
      (cache.handleChange tree change).2 = cache.traced spans) ∨
    (∃ key entry, cache.changeEvents tree change = [⟨key, .marked⟩] ∧
      cache.entries.find? key = some entry ∧
      (cache.handleChange tree change).2 = cache.withMark key entry change.path) ∨
    (∃ (table : Descriptor) (spans : List Span),
      cache.changeEvents tree change = [⟨lower table.name, .created⟩] ∧
      cache.entries.find? (lower table.name) = none ∧ table.dirty = true ∧
      (cache.handleChange tree change).2 = cache.withEntry ⟨table, change.path⟩ [] spans) := by
  rcases handleChange_outcome cache tree change with ⟨outcome, spans, _, hidle, _, hafter⟩ |
    ⟨name, entry, hname, hentry, hafter⟩ | ⟨name, table, hname, hnew, hsampled, _, hafter⟩
  · have hnone : Happening.ofChange? outcome = none := by
      rcases hidle with rfl | ⟨failure, rfl⟩ <;> rfl
    exact Or.inl ⟨spans, by simp [changeEvents, hafter, hnone], congrArg Prod.snd hafter⟩
  · refine Or.inr (Or.inl ⟨lower name, entry, ?_, hentry, congrArg Prod.snd hafter⟩)
    simp [changeEvents, hafter, keyOf?_of_name hname, Happening.ofChange?]
  · obtain ⟨_, rfl, hdirty⟩ := sampled_table (isIdentifier_of_nameFor? hname) hsampled
    refine Or.inr (Or.inr ⟨table, _, ?_, hnew, hdirty, congrArg Prod.snd hafter⟩)
    simp [changeEvents, hafter, keyOf?_of_name hname, Happening.ofChange?]

theorem loadEvent_cases {cache : Cache} (hcache : cache.WellFormed) (tree : Tree) {name : String}
    (hdirty : cache.isDirty name = true) :
    ∃ entry, cache.entries.find? (lower name) = some entry ∧ entry.table.dirty = true ∧
      ((∃ spans, cache.loadEvent tree name = ⟨lower name, .failed⟩ ∧
        (cache.reload tree name).2 = cache.traced spans) ∨
      (∃ (table : Descriptor) (rows : List (List Value)) (spans : List Span),
        cache.loadEvent tree name = ⟨lower name, .loaded⟩ ∧ lower table.name = lower name ∧
        (cache.reload tree name).2 =
          cache.withEntry ⟨table.markClean, entry.path⟩ rows spans)) := by
  obtain ⟨entry, hentry, hflag⟩ := isDirty_iff.1 hdirty
  refine ⟨entry, hentry, hflag, ?_⟩
  rcases reload_cases hcache tree hentry with
    ⟨failure, spans, _, _, hreload⟩ | ⟨table, batch, _, _, hname, hreload⟩
  · exact Or.inl ⟨spans, by rw [loadEvent, hreload]; rfl, congrArg Prod.snd hreload⟩
  · refine Or.inr ⟨table, _, _, by rw [loadEvent, hreload]; rfl, ?_, congrArg Prod.snd hreload⟩
    rw [hname, ← (hcache _ entry hentry).1]

/-! ### The log tells the flags -/

/-- The invariant: a table is there if anything has happened to it, and dirty unless a load came
last. -/
structure Logged (cache : Cache) (log : List Event) : Prop where
  wellFormed : cache.WellFormed
  lawful : Lawful log
  flags : ∀ key, (cache.entries.find? key).map (·.table.dirty) =
    (latest? log key).map (· != .loaded)

section Logged

variable {cache : Cache} {log : List Event} {key : String}

theorem Logged.find?_eq_none_iff (h : Logged cache log) :
    cache.entries.find? key = none ↔ latest? log key = none := by
  rw [← Option.map_eq_none_iff, h.flags, Option.map_eq_none_iff]

theorem Logged.exists_latest (h : Logged cache log) {entry : Entry}
    (hentry : cache.entries.find? key = some entry) :
    ∃ last, latest? log key = some last ∧ entry.table.dirty = (last != .loaded) := by
  have hflags := h.flags key
  rw [hentry, Option.map_some, eq_comm, Option.map_eq_some_iff] at hflags
  obtain ⟨last, hlast, hdirty⟩ := hflags
  exact ⟨last, hlast, hdirty.symm⟩

theorem Logged.exists_entry (h : Logged cache log) {last : Happening}
    (hlast : latest? log key = some last) :
    ∃ entry, cache.entries.find? key = some entry ∧ entry.table.dirty = (last != .loaded) := by
  have hflags := h.flags key
  rw [hlast, Option.map_some, Option.map_eq_some_iff] at hflags
  exact hflags

theorem Logged.follows_of_dirty (h : Logged cache log) {entry : Entry}
    (hentry : cache.entries.find? key = some entry) (hdirty : entry.table.dirty = true) :
    latest? log key = some .created ∨ latest? log key = some .marked := by
  obtain ⟨last, hlast, hflag⟩ := h.exists_latest hentry
  rw [hlast]
  cases last with
  | created => exact Or.inl rfl
  | marked => exact Or.inr rfl
  | loaded => simp [hdirty] at hflag
  | failed => exact absurd rfl (exists_of_latest? hlast).2

theorem Logged.withInbox (h : Logged cache log) (inbox : Option Inbox) :
    Logged { cache with inbox := inbox } log := ⟨h.wellFormed, h.lawful, h.flags⟩

theorem Logged.withRefusals (h : Logged cache log) (refusals : Refusals) :
    Logged (cache.withRefusals refusals) log := ⟨h.wellFormed, h.lawful, h.flags⟩

theorem Logged.traced (h : Logged cache log) (spans : List Span) :
    Logged (cache.traced spans) log := ⟨h.wellFormed, h.lawful, h.flags⟩

/-- A step that puts an entry under the key of its event. -/
theorem Logged.insert (h : Logged cache log) {after : Cache} (hafter : after.WellFormed)
    {happening : Happening} (hfollows : happening.Follows (latest? log key)) {entry : Entry}
    (hentries : after.entries = cache.entries.insert key entry) (hne : happening ≠ .failed)
    (hdirty : entry.table.dirty = (happening != .loaded)) :
    Logged after (log ++ [⟨key, happening⟩]) := by
  refine ⟨hafter, h.lawful.concat hfollows, fun other => ?_⟩
  rw [hentries, latest?_append, latest?_singleton]
  by_cases hkey : key = other
  · subst hkey
    simp [hne, hdirty]
  · rw [NameMap.find?_insert_of_ne _ (Ne.symm hkey), if_neg (by simp [hkey]), Option.none_or]
    exact h.flags other

theorem Logged.failed (h : Logged cache log) {after : Cache} (hafter : after.WellFormed)
    (hfollows : Happening.failed.Follows (latest? log key))
    (hentries : after.entries = cache.entries) : Logged after (log ++ [⟨key, .failed⟩]) := by
  refine ⟨hafter, h.lawful.concat hfollows, fun other => ?_⟩
  rw [hentries, latest?_append, latest?_singleton, if_neg (by simp), Option.none_or]
  exact h.flags other

theorem Logged.handleChange (h : Logged cache log) (tree : Tree) (change : Change) :
    Logged (cache.handleChange tree change).2 (log ++ cache.changeEvents tree change) := by
  have hafter := wellFormed_handleChange h.wellFormed tree change
  rcases changeEvents_cases cache tree change with ⟨spans, hevents, hchange⟩ |
    ⟨key, entry, hevents, hentry, hchange⟩ | ⟨table, spans, hevents, hnew, hdirty, hchange⟩
  · rw [hevents, hchange, List.append_nil]
    exact h.traced spans
  · rw [hevents]
    obtain ⟨last, hlast, _⟩ := h.exists_latest hentry
    have hthere : latest? log key ≠ none := by simp [hlast]
    exact h.insert hafter hthere (congrArg Cache.entries hchange) (by decide) rfl
  · rw [hevents]
    exact h.insert hafter (h.find?_eq_none_iff.1 hnew) (congrArg Cache.entries hchange) (by decide)
      hdirty

theorem Logged.reload (h : Logged cache log) (tree : Tree) {name : String}
    (hdirty : cache.isDirty name = true) :
    Logged (cache.reload tree name).2 (log ++ [cache.loadEvent tree name]) := by
  have hafter := wellFormed_reload h.wellFormed tree name
  obtain ⟨entry, hentry, hflag, ⟨spans, hevent, hreload⟩ |
    ⟨table, rows, spans, hevent, hname, hreload⟩⟩ := loadEvent_cases h.wellFormed tree hdirty
  · rw [hevent]
    refine h.failed hafter (h.follows_of_dirty hentry hflag) ?_
    rw [hreload, traced_entries]
  · have hentries : (cache.reload tree name).2.entries =
        cache.entries.insert (lower name) ⟨table.markClean, entry.path⟩ := by
      rw [hreload, withEntry_entries, ← hname]
      rfl
    rw [hevent]
    exact h.insert hafter (h.follows_of_dirty hentry hflag) hentries (by decide) rfl

theorem Logged.apply (h : Logged cache log) (tree : Tree) (operation : Operation) :
    Logged (cache.apply tree operation) (log ++ cache.events tree operation) :=
  Recorder.ofOperation_induction tree (fun _ _ inbox h => h.withInbox inbox)
    (fun _ _ refusals h => h.withRefusals refusals) (fun _ _ spans h => h.traced spans)
    (fun _ _ change h => h.handleChange tree change) (fun _ _ _ hdirty h => h.reload tree hdirty) h
    operation

theorem History.logged (h : History cache log) : Logged cache log := by
  induction h with
  | new =>
      refine ⟨?_, lawful_nil, fun key => rfl⟩
      intro key entry hentry
      simp [Cache.new] at hentry
  | operation tree operation _ ih => exact ih.apply tree operation
  | statement text _ ih => exact ⟨ih.wellFormed, ih.lawful, ih.flags⟩

end Logged

/-! ### Attempts and columns -/

theorem exists_loadEvent {cache : Cache} (hcache : cache.WellFormed) (tree : Tree)
    {names : List String} {name : String} (hname : name ∈ names)
    (hdirty : cache.isDirty name = true) :
    ⟨lower name, .loaded⟩ ∈ eventRecorder.ofLoads cache tree names ∨
      ⟨lower name, .failed⟩ ∈ eventRecorder.ofLoads cache tree names := by
  induction names generalizing cache with
  | nil => cases hname
  | cons head rest ih =>
      rw [Recorder.ofLoads]
      by_cases hkey : lower name = lower head
      · have hhead : cache.isDirty head = true := by
          rwa [isDirty, entry?, ← hkey]
        rw [if_pos hhead, hkey]
        cases hload : (cache.reload tree head).1 <;>
          simp [eventRecorder, loadEvent, hload, Happening.ofLoad]
      · have hrest : name ∈ rest := by
          rcases List.mem_cons.1 hname with rfl | hrest
          · exact absurd rfl hkey
          · exact hrest
        split_ifs
        · have hagrees := agreesAt_reload_of_ne hcache tree hkey
          have hstill := (isDirty_congr hagrees).trans hdirty
          exact (ih (wellFormed_reload hcache tree head) hrest hstill).imp
            (List.mem_append_right _) (List.mem_append_right _)
        · exact ih hcache hrest hdirty

theorem attempted_of_matches {cache : Cache} (hcache : cache.WellFormed) {key : String}
    {entry : Entry} (hentry : cache.entries.find? key = some entry)
    (hdirty : entry.table.dirty = true) (tree : Tree) {query : String}
    (hmatches : Matches cache.matching query entry.table.name) :
    ⟨key, .loaded⟩ ∈ cache.events tree (.execute query) ∨
      ⟨key, .failed⟩ ∈ cache.events tree (.execute query) := by
  -- the changes that are noted first leave the table there, under its name and dirty
  obtain ⟨after, hafter, hname, hstill⟩ := exists_entry_drain hentry tree
  have hdrained := wellFormed_drain hcache tree
  have hmatching : (cache.drain tree).2.matching = cache.matching :=
    (frame_drain cache tree).matching
  have hreferenced : entry.table.name ∈ (cache.drain tree).2.referenced query :=
    mem_referenced_iff.2 ⟨key, after, hafter, hname, hstill hdirty, hmatching ▸ hmatches⟩
  have hload := exists_loadEvent hdrained tree hreferenced
    (isDirty_of_mem_referenced hdrained hreferenced)
  rw [← (hcache key entry hentry).1] at hload
  exact hload.imp (List.mem_append_right _) (List.mem_append_right _)

/-- Where a table comes from: it was made or loaded meanwhile, or it was there before with the same
columns, and if it was dirty it still is. -/
def Explained (cache : Cache) (log : List Event) (key : String) (after : Entry) : Prop :=
  ⟨key, .created⟩ ∈ log ∨ ⟨key, .loaded⟩ ∈ log ∨
    ∃ entry, cache.entries.find? key = some entry ∧ after.table.name = entry.table.name ∧
      after.table.columns = entry.table.columns ∧
      (entry.table.dirty = true → after.table.dirty = true)

theorem Explained.append {cache : Cache} {log : List Event} {key : String} {after : Entry}
    (h : cache.Explained log key after) (more : List Event) :
    cache.Explained (log ++ more) key after :=
  h.imp (List.mem_append_left more) (Or.imp_left (List.mem_append_left more))

theorem Explained.marked {cache : Cache} {log : List Event} {key : String} {after : Entry}
    (h : cache.Explained log key after) (path : String) :
    cache.Explained log key ⟨after.table.markDirty, path⟩ := by
  refine h.imp_right (Or.imp_right ?_)
  rintro ⟨entry, hentry, hname, hcolumns, _⟩
  exact ⟨entry, hentry, hname, hcolumns, fun _ => rfl⟩

theorem explained_apply {cache : Cache} (hcache : cache.WellFormed) (tree : Tree)
    (operation : Operation) {key : String} {after : Entry}
    (hafter : (cache.apply tree operation).entries.find? key = some after) :
    cache.Explained (cache.events tree operation) key after := by
  -- every entry of the cache on its way is explained by the events so far
  let motive (now : Cache) (log : List Event) : Prop :=
    now.WellFormed ∧ ∀ after, now.entries.find? key = some after → cache.Explained log key after
  have hstart : motive cache [] :=
    ⟨hcache, fun after h => Or.inr (Or.inr ⟨after, h, rfl, rfl, id⟩)⟩
  refine (Recorder.ofOperation_induction (motive := motive) tree (fun _ _ _ h => h)
    (fun _ _ _ h => h) (fun _ _ _ h => h) ?_ ?_ hstart operation).2 after hafter
  · rintro now log change ⟨hnow, hlog⟩
    refine ⟨wellFormed_handleChange hnow tree change, fun after hafter => ?_⟩
    rcases changeEvents_cases now tree change with ⟨spans, hevents, hchange⟩ |
      ⟨marked, entry, hevents, hentry, hchange⟩ | ⟨table, spans, hevents, _, _, hchange⟩
    · rw [hchange] at hafter
      exact (hlog after hafter).append _
    · rw [hchange] at hafter
      rcases NameMap.find?_insert_eq_some_iff.1 hafter with ⟨rfl, rfl⟩ | ⟨_, hafter⟩
      · exact ((hlog entry hentry).marked change.path).append _
      · exact (hlog after hafter).append _
    · rw [hchange] at hafter
      rcases NameMap.find?_insert_eq_some_iff.1 hafter with ⟨rfl, rfl⟩ | ⟨_, hafter⟩
      · simp only [eventRecorder, hevents]
        exact Or.inl (List.mem_append_right _ List.mem_cons_self)
      · exact (hlog after hafter).append _
  · rintro now log name hdirty ⟨hnow, hlog⟩
    refine ⟨wellFormed_reload hnow tree name, fun after hafter => ?_⟩
    obtain ⟨entry, hentry, hflag, ⟨spans, hevent, hreload⟩ |
      ⟨table, rows, spans, hevent, hname, hreload⟩⟩ := loadEvent_cases hnow tree hdirty
    · rw [hreload] at hafter
      exact (hlog after hafter).append _
    · rw [hreload] at hafter
      rcases NameMap.find?_insert_eq_some_iff.1 hafter with ⟨rfl, rfl⟩ | ⟨_, hafter⟩
      · simp only [eventRecorder, hevent, ← hname]
        exact Or.inr (Or.inl (List.mem_append_right _ List.mem_cons_self))
      · exact (hlog after hafter).append _

def Report.loads (report : Report) : List Event :=
  report.reloaded.map fun loaded => ⟨lower loaded.1, .loaded⟩

def Report.failures (report : Report) : List Event :=
  report.failed.map fun failed => ⟨lower failed.1, .failed⟩

/-- The report of a refresh names the tables that the events are about. -/
theorem reported_refreshEach (cache : Cache) (tree : Tree) (names : List String) :
    (cache.refreshEach tree names).1.loads =
        (eventRecorder.ofLoads cache tree names).filter (·.happening = .loaded) ∧
      (cache.refreshEach tree names).1.failures =
        (eventRecorder.ofLoads cache tree names).filter (·.happening = .failed) := by
  unfold Report.loads Report.failures
  induction names generalizing cache with
  | nil => exact ⟨rfl, rfl⟩
  | cons name rest ih =>
      rw [Recorder.ofLoads]
      cases hdirty : cache.isDirty name with
      | false => simpa [refreshEach_cons_of_clean hdirty] using ih cache
      | true =>
          cases hreload : cache.reload tree name with
          | mk outcome after =>
              obtain ⟨hreloaded, hfailed⟩ := ih after
              cases outcome with
              | ok count =>
                  simp [refreshEach_cons_of_ok hdirty hreload, Report.withReloaded, eventRecorder,
                    loadEvent, hreload, Happening.ofLoad, hreloaded, hfailed]
              | error failure =>
                  simp [refreshEach_cons_of_error hdirty hreload, Report.withFailed, eventRecorder,
                    loadEvent, hreload, Happening.ofLoad, hreloaded, hfailed]

/-! ### Histories -/

/-- What a log promises about the cache that it leads to. -/
structure TableHistory (cache : Cache) (log : List Event) : Prop where
  there : ∀ key, cache.entries.find? key = none ↔ latest? log key = none
  clean : ∀ key entry, cache.entries.find? key = some entry →
    (entry.table.dirty = false ↔ latest? log key = some .loaded)
  /-- A table is made once and before all else, and loads are attempted only after a mark or the
  making that no load has made up for. -/
  lawful : Lawful log
  /-- Between two marks there is one load that succeeds, at most. -/
  once : ∀ key before between after, log = before ++ between ++ after →
    ⟨key, .created⟩ ∉ between → ⟨key, .marked⟩ ∉ between → between.count ⟨key, .loaded⟩ ≤ 1
  /-- A load that failed is attempted again by every query that refers to its table. -/
  retried : ∀ key before after, log = before ++ ⟨key, .failed⟩ :: after → ⟨key, .loaded⟩ ∉ after →
    ∃ entry, cache.entries.find? key = some entry ∧ entry.table.dirty = true ∧
      ∀ tree query, Matches cache.matching query entry.table.name →
        ⟨key, .loaded⟩ ∈ cache.events tree (.execute query) ∨
          ⟨key, .failed⟩ ∈ cache.events tree (.execute query)
  /-- Only a load clears a mark, and only the making and loads give a table its columns. -/
  explained : ∀ tree operation key after,
    (cache.apply tree operation).entries.find? key = some after →
      cache.Explained (cache.events tree operation) key after
  reported : ∀ tree names,
    (cache.ensureFresh tree names).1.loads =
        (cache.events tree (.refresh names)).filter (·.happening = .loaded) ∧
      (cache.ensureFresh tree names).1.failures =
        (cache.events tree (.refresh names)).filter (·.happening = .failed)

/-- Whatever is done with a cache, its log tells which tables are there and which of them are dirty,
and every load in it makes up for a mark. -/
theorem tableHistory_of_history {cache : Cache} {log : List Event} (hhistory : History cache log) :
    TableHistory cache log := by
  have hlogged := hhistory.logged
  refine ⟨fun key => hlogged.find?_eq_none_iff, ?_, hlogged.lawful, ?_, ?_,
    fun tree operation key after => explained_apply hlogged.wellFormed tree operation,
    fun tree names => reported_refreshEach cache tree (nameSet names)⟩
  · intro key entry hentry
    obtain ⟨last, hlast, hdirty⟩ := hlogged.exists_latest hentry
    simp [hlast, hdirty]
  · rintro key before between after rfl
    exact hlogged.lawful.count_loaded_le_one
  · rintro key before after rfl hafter
    obtain ⟨last, hlast, hne⟩ := hlogged.lawful.latest?_of_failed hafter
    obtain ⟨entry, hentry, hdirty⟩ := hlogged.exists_entry hlast
    rw [bne_iff_ne.2 hne] at hdirty
    exact ⟨entry, hentry, hdirty, fun tree query hmatches =>
      attempted_of_matches hlogged.wellFormed hentry hdirty tree hmatches⟩

theorem history_ofOneFile : History (ofOneFile .inMemory .substring) [⟨"a", .created⟩] := by
  set cache := Cache.new .inMemory ⟨44, false⟩ "c" .substring with hcache
  have hchange : (cache.handleChange oneFile (changeAt "/a.c" 5)).1 = .ok .created :=
    congrArg Prod.fst (handleChange_oneFile rfl rfl rfl)
  have hkey : keyOf? cache.extension (changeAt "/a.c" 5) = some "a" := by decide
  have hevents : cache.events oneFile (.change (changeAt "/a.c" 5)) = [⟨"a", .created⟩] := by
    simp [events, eventRecorder, Recorder.ofOperation, changeEvents, hkey, hchange,
      Happening.ofChange?]
  have hhistory := (History.new .inMemory ⟨44, false⟩ "c" .substring).operation oneFile
    (.change (changeAt "/a.c" 5))
  rwa [← hcache, hevents, apply_oneFile .inMemory .substring rfl] at hhistory

/-- The file is gone at the first query and back at the second. -/
theorem tableHistory_of_one_file : TableHistory
    (((ofOneFile .inMemory .substring).apply .empty (.refresh ["a"])).apply oneFile
      (.refresh ["A"]))
    [⟨"a", .created⟩, ⟨"a", .failed⟩, ⟨"a", .loaded⟩] := by
  set cache := ofOneFile .inMemory .substring with hcache
  have hentry : cache.entries.find? "a" = some ⟨oneFileTable, "/a.c"⟩ := entry_ofOneFile _ _
  have hdirty : cache.isDirty "a" = true ∧ cache.isDirty "A" = true :=
    ⟨isDirty_iff.2 ⟨_, hentry, rfl⟩, isDirty_iff.2 ⟨_, hentry, rfl⟩⟩
  have hgone : cache.reload .empty "a" =
      (.error (.sourceUnavailable "/a.c" .notFound), cache) := by
    have hrows : sourceRows cache.format .empty "/a.c" =
        .error (.sourceUnavailable "/a.c" .notFound) := by cbv
    have hfound : cache.entry? "a" = some ⟨oneFileTable, "/a.c"⟩ := hentry
    simp [reload, hfound, freshTable, firstRow, hrows]
  have hback : (cache.reload oneFile "A").1 = .ok 1 := by
    have hformed : cache.WellFormed := history_ofOneFile.logged.wellFormed
    have hfound : cache.entry? "A" = some ⟨oneFileTable, "/a.c"⟩ := hentry
    exact congrArg Prod.fst (reload_of_loading_ok hformed hfound (loading_oneFile rfl))
  have hlower : lower "a" = "a" ∧ lower "A" = "a" := by decide
  have hfirst : cache.apply .empty (.refresh ["a"]) = cache := by
    simp [apply, ensureFresh, nameSet, insertName, refreshEach, hdirty, hgone]
  have hfailed : cache.events .empty (.refresh ["a"]) = [⟨"a", .failed⟩] := by
    simp [events, eventRecorder, Recorder.ofOperation, Recorder.ofLoads, nameSet, insertName,
      loadEvent, hdirty, hgone, hlower, Happening.ofLoad]
  have hloaded : cache.events oneFile (.refresh ["A"]) = [⟨"a", .loaded⟩] := by
    simp [events, eventRecorder, Recorder.ofOperation, Recorder.ofLoads, nameSet, insertName,
      loadEvent, hdirty, hback, hlower, Happening.ofLoad]
  have hhistory := (history_ofOneFile.operation .empty (.refresh ["a"])).operation oneFile
    (.refresh ["A"])
  rw [← hcache, hfailed, hfirst, hloaded] at hhistory
  rw [hfirst]
  exact tableHistory_of_history hhistory

end Cache

end LiveTables
