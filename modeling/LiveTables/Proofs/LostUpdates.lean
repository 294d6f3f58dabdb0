import LiveTables.Proofs.FileWrites
import LiveTables.Proofs.Interleaving

/-!
# No update is lost

A clean table shows its file as it is now, unless the monitor has yet to see the file or a change of
it still waits for the cache. A write gives its file a time that the monitor has not seen, so
whatever else happens it stays known until the change has been noted, and a load that is under way
cannot hide it.
-/

namespace LiveTables

open LiveTables.Engine LiveTables.Files LiveTables.Sql LiveTables.Table LiveTables.Text
open LiveTables.Watch

namespace Cache

def pathKey? (extension path : String) : Option String :=
  (nameFor? ((Path.fileName? path).getD "") extension).map lower

/-- The monitor has seen the file at a path as it is, and no change of its table waits. -/
def Settled (tree : Tree) (times : NameMap Int) (extension : String) (waiting : List Change)
    (key path : String) : Prop :=
  (∀ change ∈ waiting, keyOf? extension change ≠ some key) ∧
    ∃ modified, tree.modified? path = .ok modified ∧ times.find? path = some modified

/-- What holds between the files, the times that the monitor remembers, the changes that wait for
the cache, and the cache. -/
structure Consistent (tree : Tree) (times : NameMap Int) (waiting : List Change) (cache : Cache) :
    Prop where
  wellFormed : cache.WellFormed
  remembered : ∀ path time, times.find? path = some time →
    ∃ modified, tree.modified? path = .ok modified ∧ time ≤ modified
  sent : ∀ change ∈ waiting, change.fileName = (Path.fileName? change.path).getD ""
  placed : ∀ key entry, cache.entries.find? key = some entry →
    pathKey? cache.extension entry.path = some key
  current : ∀ key entry, cache.entries.find? key = some entry → entry.table.dirty = false →
    Settled tree times cache.extension waiting key entry.path → cache.Loaded tree entry

/-- What has been read so far for a load is what would be read now, unless the file has changed. -/
def Refresh.Sound (tree : Tree) (times : NameMap Int) (waiting : List Change) (cache : Cache)
    (refresh : Refresh) : Prop :=
  match refresh.names, refresh.stage with
  | name :: _, .sampled path table => ∃ entry, cache.entries.find? (lower name) = some entry ∧
      entry.path = path ∧ table.WellFormed ∧ table.name = entry.table.name ∧
      (Settled tree times cache.extension waiting (lower name) path →
        cache.freshTable tree entry = .ok table)
  | name :: _, .read table batch => ∃ entry, cache.entries.find? (lower name) = some entry ∧
      table.WellFormed ∧ table.name = entry.table.name ∧ (∃ rows, table.batch rows = .ok batch) ∧
      (Settled tree times cache.extension waiting (lower name) entry.path →
        cache.freshTable tree entry = .ok table ∧
          cache.readBatch tree entry.path table = .ok batch)
  | _, _ => True

theorem Loaded.congr {cache after : Cache} {tree : Tree} {entry : Entry}
    (h : cache.Loaded tree entry) (hformat : after.format = cache.format)
    (hrelation : after.relation? (lower entry.table.name) =
      cache.relation? (lower entry.table.name)) : after.Loaded tree entry := by
  refine ⟨h.clean, ?_, ?_⟩
  · rw [freshTable_congr hformat]
    exact h.columns
  · rw [hformat, hrelation]
    exact h.rows

/-! ### Files and times -/

section Files

variable {tree after : Tree} {cache : Cache}

theorem sourceRows_congr (format : Record.Format) {path : String}
    (hstat : after.stat path = tree.stat path) :
    sourceRows format after path = sourceRows format tree path := by
  simp only [sourceRows, Record.Format.openRows, hstat]

theorem freshTable_of_stat {entry : Entry} (hstat : after.stat entry.path = tree.stat entry.path) :
    cache.freshTable after entry = cache.freshTable tree entry := by
  simp only [freshTable, firstRow, sourceRows_congr _ hstat]

theorem readBatch_of_stat {path : String} (hstat : after.stat path = tree.stat path)
    (table : Descriptor) : cache.readBatch after path table = cache.readBatch tree path table := by
  simp only [readBatch, sourceRows_congr _ hstat]

theorem Loaded.of_stat {entry : Entry} (h : cache.Loaded tree entry)
    (hstat : after.stat entry.path = tree.stat entry.path) : cache.Loaded after entry := by
  refine ⟨h.clean, ?_, ?_⟩
  · rw [freshTable_of_stat hstat]
    exact h.columns
  · rw [sourceRows_congr _ hstat]
    exact h.rows

/-- What is settled now was settled before, and its file is the same. -/
def Keeps (extension : String) (tree : Tree) (times : NameMap Int) (waiting : List Change)
    (tree' : Tree) (times' : NameMap Int) (waiting' : List Change) : Prop :=
  ∀ key path, pathKey? extension path = some key →
    Settled tree' times' extension waiting' key path →
      Settled tree times extension waiting key path ∧ tree'.stat path = tree.stat path

variable {times times' : NameMap Int} {waiting waiting' : List Change}

theorem Consistent.transfer (h : Consistent tree times waiting cache)
    (hkeeps : Keeps cache.extension tree times waiting after times' waiting')
    (htimes : ∀ path time, times'.find? path = some time →
      ∃ modified, after.modified? path = .ok modified ∧ time ≤ modified)
    (hsent : ∀ change ∈ waiting', change.fileName = (Path.fileName? change.path).getD "") :
    Consistent after times' waiting' cache := by
  refine ⟨h.wellFormed, htimes, hsent, h.placed, ?_⟩
  intro key entry hentry hclean hsettled
  obtain ⟨hbefore, hstat⟩ := hkeeps key entry.path (h.placed key entry hentry) hsettled
  exact (h.current key entry hentry hclean hbefore).of_stat hstat

theorem Refresh.Sound.transfer {refresh : Refresh} (hsound : refresh.Sound tree times waiting cache)
    (h : Consistent tree times waiting cache)
    (hkeeps : Keeps cache.extension tree times waiting after times' waiting') :
    refresh.Sound after times' waiting' cache := by
  unfold Refresh.Sound at hsound ⊢
  split at hsound
  · obtain ⟨entry, hentry, rfl, htable, hname, hfresh⟩ := hsound
    refine ⟨entry, hentry, rfl, htable, hname, fun hsettled => ?_⟩
    obtain ⟨hbefore, hstat⟩ := hkeeps _ _ (h.placed _ entry hentry) hsettled
    exact (freshTable_of_stat hstat).trans (hfresh hbefore)
  · obtain ⟨entry, hentry, htable, hname, hbatch, hfresh⟩ := hsound
    refine ⟨entry, hentry, htable, hname, hbatch, fun hsettled => ?_⟩
    obtain ⟨hbefore, hstat⟩ := hkeeps _ _ (h.placed _ entry hentry) hsettled
    exact ⟨(freshTable_of_stat hstat).trans (hfresh hbefore).1,
      (readBatch_of_stat hstat _).trans (hfresh hbefore).2⟩
  · trivial

section Write

variable {path : String} {content : List UInt8} {time : Int}

/-- A file that has just been written is not settled: the monitor has seen no time as late. -/
theorem keeps_of_write (h : Consistent tree times waiting cache)
    (hwrite : tree.write path content (some time) = .ok after)
    (hlater : ∀ earlier, tree.modified? path = .ok earlier → earlier < time) :
    Keeps cache.extension tree times waiting after times waiting := by
  rintro key other _ ⟨hnone, modified, hmodified, hseen⟩
  obtain ⟨id, written, hstat⟩ := Tree.modified?_eq_ok_iff.1 hmodified
  rcases Tree.stat_of_later_write hwrite hlater hstat with hsame | ⟨⟨_, hnode⟩, hall⟩
  · exact ⟨⟨hnone, modified, Tree.modified?_eq_ok_iff.2 ⟨id, written, hsame⟩, hseen⟩,
      hstat.trans hsame.symm⟩
  · -- what the monitor has seen is a time that the file had before, and the write is later
    obtain ⟨earlier, hearlier, hle⟩ := h.remembered other modified hseen
    have hlt := hall earlier hearlier
    rw [Node.file.injEq] at hnode
    omega

theorem Consistent.write (h : Consistent tree times waiting cache)
    (hwrite : tree.write path content (some time) = .ok after)
    (hlater : ∀ earlier, tree.modified? path = .ok earlier → earlier < time) :
    Consistent after times waiting cache := by
  refine h.transfer (keeps_of_write h hwrite hlater) ?_ h.sent
  intro other seen hseen
  obtain ⟨earlier, hearlier, hle⟩ := h.remembered other seen hseen
  obtain ⟨modified, hmodified, hle'⟩ := Tree.modified?_of_later_write hwrite hlater hearlier
  exact ⟨modified, hmodified, hle.trans hle'⟩

end Write

section Examine

variable {poller : Poller} {path : String}

theorem examine_cases (poller : Poller) (tree : Tree) (path : String) :
    poller.examine (path, tree.modified? path) = (none, poller) ∨
      ∃ modified, tree.modified? path = .ok modified ∧
        poller.examine (path, tree.modified? path) =
          (some (changeAt path modified), poller.remember path modified) := by
  unfold Poller.examine
  cases tree.modified? path with
  | error fault => exact Or.inl rfl
  | ok modified =>
      dsimp only
      split_ifs with hnewer
      · exact Or.inr ⟨modified, rfl, rfl⟩
      · exact Or.inl rfl

/-- A file whose time has just been remembered is not settled: its change waits. -/
theorem keeps_of_examine (extension : String) (tree : Tree) (waiting : List Change)
    (poller : Poller) (path : String) :
    Keeps extension tree poller.times waiting tree
      (poller.examine (path, tree.modified? path)).2.times
      (waiting ++ (poller.examine (path, tree.modified? path)).1.toList) := by
  rcases examine_cases poller tree path with hnone | ⟨modified, hmodified, hsome⟩
  · rw [hnone]
    intro key other _ hsettled
    simpa using hsettled
  · rw [hsome]
    rintro key other hkey ⟨hwaiting, current, hcurrent, hseen⟩
    -- the change that is sent is about the file at `path`, which is therefore not settled
    have hne : other ≠ path := by
      rintro rfl
      exact hwaiting (changeAt other modified) (by simp) hkey
    simp only [Poller.remember, NameMap.find?_insert_of_ne _ hne] at hseen
    exact ⟨⟨fun change hchange => hwaiting change (List.mem_append_left _ hchange), current,
      hcurrent, hseen⟩, rfl⟩

theorem Consistent.examine (h : Consistent tree poller.times waiting cache) :
    Consistent tree (poller.examine (path, tree.modified? path)).2.times
      (waiting ++ (poller.examine (path, tree.modified? path)).1.toList) cache := by
  refine h.transfer (keeps_of_examine cache.extension tree waiting poller path) ?_ ?_
  · rcases examine_cases poller tree path with hnone | ⟨modified, hmodified, hsome⟩
    · rw [hnone]
      exact h.remembered
    · rw [hsome]
      intro other time hseen
      rcases NameMap.find?_insert_eq_some_iff.1 hseen with ⟨rfl, rfl⟩ | ⟨_, hseen⟩
      · exact ⟨modified, hmodified, le_rfl⟩
      · exact h.remembered other time hseen
  · rcases examine_cases poller tree path with hnone | ⟨modified, hmodified, hsome⟩
    · rw [hnone]
      simpa using h.sent
    · rw [hsome]
      intro change hchange
      rcases List.mem_append.1 hchange with hchange | hchange
      · exact h.sent change hchange
      · obtain rfl : change = changeAt path modified := by simpa using hchange
        rfl

end Examine

end Files

/-! ### Tables -/

section Tables

variable {tree : Tree} {times : NameMap Int} {waiting : List Change} {cache : Cache}

theorem Consistent.congr (h : Consistent tree times waiting cache) {after : Cache}
    (hentries : after.entries = cache.entries) (hextension : after.extension = cache.extension)
    (hformat : after.format = cache.format) (hrelation : after.relation? = cache.relation?) :
    Consistent tree times waiting after := by
  refine ⟨?_, h.remembered, h.sent, ?_, ?_⟩
  · simpa only [WellFormed, hentries] using h.wellFormed
  · simpa only [hentries, hextension] using h.placed
  · intro key entry hentry hclean hsettled
    rw [hentries] at hentry
    rw [hextension] at hsettled
    exact (h.current key entry hentry hclean hsettled).congr hformat (congrFun hrelation _)

theorem Consistent.of_inbox (h : Consistent tree times waiting cache) (inbox : Option Inbox) :
    Consistent tree times waiting { cache with inbox } := h.congr rfl rfl rfl rfl

theorem Consistent.of_refusals (h : Consistent tree times waiting cache) (refusals : Refusals) :
    Consistent tree times waiting (cache.withRefusals refusals) := h.congr rfl rfl rfl rfl

theorem Consistent.traced (h : Consistent tree times waiting cache) (spans : List Span) :
    Consistent tree times waiting (cache.traced spans) := h.congr rfl rfl rfl rfl

/-- A table that is put into the store is as its file says, if the file is settled. -/
theorem Consistent.withEntry (h : Consistent tree times waiting cache) (entry : Entry)
    {rows : List (List Value)} {spans : List Span} (hformed : entry.table.WellFormed)
    (hplaced : pathKey? cache.extension entry.path = some (lower entry.table.name))
    (hloaded : Settled tree times cache.extension waiting (lower entry.table.name) entry.path →
      (cache.withEntry entry rows spans).Loaded tree entry) :
    Consistent tree times waiting (cache.withEntry entry rows spans) := by
  refine ⟨h.wellFormed.withEntry entry hformed rows spans, h.remembered, h.sent, ?_, ?_⟩
  · intro key other hother
    rcases NameMap.find?_insert_eq_some_iff.1 hother with ⟨rfl, rfl⟩ | ⟨_, hother⟩
    · exact hplaced
    · exact h.placed key other hother
  · intro key other hother hclean hsettled
    rcases NameMap.find?_insert_eq_some_iff.1 hother with ⟨rfl, rfl⟩ | ⟨hne, hother⟩
    · exact hloaded hsettled
    · have hkey := (h.wellFormed key other hother).1
      exact (h.current key other hother hclean hsettled).congr rfl
        (withEntry_relation?_of_ne _ _ _ _ (hkey ▸ hne))

/-- A table that is marked is dirty, so nothing is said about its rows. -/
theorem Consistent.withMark (h : Consistent tree times waiting cache) {key path : String}
    {entry : Entry} (hentry : cache.entries.find? key = some entry)
    (hplaced : pathKey? cache.extension path = some key) :
    Consistent tree times waiting (cache.withMark key entry path) := by
  refine ⟨h.wellFormed.withMark hentry path, h.remembered, h.sent, ?_, ?_⟩
  · intro other found hfound
    rcases NameMap.find?_insert_eq_some_iff.1 hfound with ⟨rfl, rfl⟩ | ⟨_, hfound⟩
    · exact hplaced
    · exact h.placed other found hfound
  · intro other found hfound hclean hsettled
    rcases NameMap.find?_insert_eq_some_iff.1 hfound with ⟨rfl, rfl⟩ | ⟨_, hfound⟩
    · cases hclean
    · exact (h.current other found hfound hclean hsettled).congr rfl rfl

end Tables

/-! ### Changes -/

section Changes

variable {tree : Tree} {times : NameMap Int} {cache : Cache} {change : Change} {rest : List Change}

/-- A change that waits may be forgotten once its table is dirty. -/
theorem Consistent.forget (h : Consistent tree times (change :: rest) cache)
    (hdirty : ∀ key entry, keyOf? cache.extension change = some key →
      cache.entries.find? key = some entry → entry.table.dirty = true) :
    Consistent tree times rest cache := by
  refine ⟨h.wellFormed, h.remembered, ?_, h.placed, ?_⟩
  · exact fun other hother => h.sent other (List.mem_cons_of_mem change hother)
  · rintro key entry hentry hclean ⟨hrest, hseen⟩
    refine h.current key entry hentry hclean ⟨?_, hseen⟩
    intro other hother hkey
    rcases List.mem_cons.1 hother with rfl | hother
    · rw [hdirty key entry hkey hentry] at hclean
      cases hclean
    · exact hrest other hother hkey

theorem Consistent.handleChange (h : Consistent tree times (change :: rest) cache) :
    Consistent tree times rest (cache.handleChange tree change).2 := by
  have hpath : pathKey? cache.extension change.path = keyOf? cache.extension change := by
    rw [pathKey?, keyOf?, h.sent change List.mem_cons_self]
  rcases handleChange_cases cache tree change with ⟨spans, _, hafter, hnone⟩ |
    ⟨key, entry, hkey, hentry, hafter⟩ | ⟨table, hkey, _, htable, hdirty, _, hafter⟩
  · rw [hafter]
    refine (h.traced spans).forget ?_
    intro other found hother hfound
    cases (hnone other hother).symm.trans hfound
  · rw [hafter]
    refine (h.withMark hentry (hpath.trans hkey)).forget ?_
    intro other found hother hfound
    obtain rfl : key = other := Option.some.inj (hkey.symm.trans hother)
    rw [withMark_entries, NameMap.find?_insert_self, Option.some.injEq] at hfound
    rw [← hfound]
    rfl
  · rw [hafter]
    -- the change still waits when the table is put in place, so the file is not settled
    refine (h.withEntry ⟨table, change.path⟩ htable (hpath.trans hkey) ?_).forget ?_
    · rintro ⟨hwaiting, _⟩
      exact absurd hkey (hwaiting change List.mem_cons_self)
    · intro other found hother hfound
      obtain rfl : lower table.name = other := Option.some.inj (hkey.symm.trans hother)
      rw [withEntry_entries, NameMap.find?_insert_self, Option.some.injEq] at hfound
      rw [← hfound]
      exact hdirty

theorem Consistent.handleChanges {changes : List Change} (h : Consistent tree times changes cache) :
    Consistent tree times [] (cache.handleChanges tree changes) := by
  induction changes generalizing cache with
  | nil => exact h
  | cons change rest ih => exact ih h.handleChange

theorem Consistent.drain {waiting : List Change} (h : Consistent tree times waiting cache)
    (hinbox : cache.inbox = some ⟨waiting, true⟩) :
    (cache.drain tree).2.inbox = some ⟨[], true⟩ ∧
      Consistent tree times [] (cache.drain tree).2 := by
  have hwaiting : cache.waiting = waiting := by simp [Cache.waiting, hinbox]
  constructor
  · rw [(frame_drain cache tree).inbox]
    simp [emptied, hinbox, Inbox.emptied?]
  · rw [drain_eq, hwaiting]
    exact (h.of_inbox _).handleChanges

end Changes

/-! ### Loads -/

section Loads

variable {tree : Tree} {times : NameMap Int} {waiting : List Change} {cache : Cache}

theorem Refresh.sound_of_choosing {refresh : Refresh} (h : refresh.stage = .choosing) :
    refresh.Sound tree times waiting cache := by
  unfold Refresh.Sound
  rw [h]
  cases refresh.names <;> trivial

theorem Refresh.Sound.of_inbox {refresh : Refresh} (h : refresh.Sound tree times waiting cache)
    (inbox : Option Inbox) : refresh.Sound tree times waiting { cache with inbox } := h

theorem Refresh.Sound.of_refusals {refresh : Refresh}
    (h : refresh.Sound tree times waiting cache) (refusals : Refusals) :
    refresh.Sound tree times waiting (cache.withRefusals refusals) := h

/-- A table that has been read is put in place as its file says, if the file is still settled. -/
theorem Consistent.install (h : Consistent tree times waiting cache) {name : String} {entry : Entry}
    {table : Descriptor} {batch : Batch} {rows : List (Except Failure Record.Row)}
    (hentry : cache.entries.find? (lower name) = some entry) (htable : table.WellFormed)
    (hname : table.name = entry.table.name) (hbatch : table.batch rows = .ok batch)
    (hfresh : Settled tree times cache.extension waiting (lower name) entry.path →
      cache.freshTable tree entry = .ok table ∧
        cache.readBatch tree entry.path table = .ok batch) :
    Frame cache (cache.install table batch).2 ∧
      Consistent tree times waiting (cache.install table batch).2 := by
  have hkey : lower name = lower table.name := by
    rw [hname]
    exact (h.wellFormed _ entry hentry).1
  have hplaced := h.placed _ entry hentry
  rw [hkey] at hentry hplaced hfresh
  have hfound : cache.entry? table.name = some entry := hentry
  rw [install_eq htable hbatch hfound]
  cases hrefusal : refusal? cache.connection table batch.rows with
  | some refused => exact ⟨frame_traced cache (quiet_of_refusal? hrefusal), h.traced refused.2⟩
  | none =>
      refine ⟨frame_withEntry cache _ _ (quiet_fillSpans table _), ?_⟩
      refine h.withEntry ⟨table.markClean, entry.path⟩ htable.markClean hplaced ?_
      intro hsettled
      obtain ⟨hcolumns, hread⟩ := hfresh hsettled
      exact loaded_of_fresh rfl hcolumns hread (withEntry_relation?_self cache
        ⟨table.markClean, entry.path⟩ batch.rows _ (working_of_refusal?_eq_none hrefusal))

/-- A part of a refresh keeps the tables as they are, or puts in place one that is as its file
says. -/
theorem Consistent.advance (h : Consistent tree times waiting cache) {refresh : Refresh}
    (hsound : refresh.Sound tree times waiting cache) :
    Frame cache (refresh.advance tree cache).2 ∧
      Consistent tree times waiting (refresh.advance tree cache).2 ∧
      (refresh.advance tree cache).1.Sound tree times waiting (refresh.advance tree cache).2 := by
  obtain ⟨names, stage, report, query⟩ := refresh
  cases names with
  | nil => exact ⟨Frame.refl cache, h, hsound⟩
  | cons name rest =>
      cases stage with
      | choosing =>
          simp only [Refresh.advance]
          cases hentry : cache.entry? name with
          | none => exact ⟨Frame.refl cache, h, Refresh.sound_of_choosing rfl⟩
          | some entry =>
              dsimp only
              split_ifs with hdirty
              · cases hfresh : cache.freshTable tree entry with
                | error failure => exact ⟨Frame.refl cache, h, Refresh.sound_of_choosing rfl⟩
                | ok table =>
                    have hformed := (h.wellFormed _ entry hentry).2
                    obtain ⟨htable, hname⟩ := wellFormed_of_freshTable hformed hfresh
                    exact ⟨Frame.refl cache, h, entry, hentry, rfl, htable, hname, fun _ => hfresh⟩
              · exact ⟨Frame.refl cache, h, Refresh.sound_of_choosing rfl⟩
      | sampled path table =>
          obtain ⟨entry, hentry, rfl, htable, hname, hfresh⟩ := hsound
          simp only [Refresh.advance]
          cases hread : cache.readBatch tree entry.path table with
          | error failure => exact ⟨Frame.refl cache, h, Refresh.sound_of_choosing rfl⟩
          | ok batch =>
              obtain ⟨rows, _, hbatch⟩ := readBatch_eq_ok_iff.1 hread
              exact ⟨Frame.refl cache, h, entry, hentry, htable, hname, ⟨rows, hbatch⟩,
                fun hsettled => ⟨hfresh hsettled, hread⟩⟩
      | read table batch =>
          obtain ⟨entry, hentry, htable, hname, ⟨_, hbatch⟩, hfresh⟩ := hsound
          obtain ⟨hframe, hafter⟩ := h.install hentry htable hname hbatch hfresh
          simp only [Refresh.advance]
          cases hinstall : cache.install table batch with
          | mk outcome after =>
              rw [hinstall] at hframe hafter
              cases outcome with
              | ok count => exact ⟨hframe, hafter, Refresh.sound_of_choosing rfl⟩
              | error failure => exact ⟨hframe, hafter, Refresh.sound_of_choosing rfl⟩

theorem Consistent.finish (h : Consistent tree times waiting cache) (refresh : Refresh) :
    (refresh.finish cache).inbox = cache.inbox ∧
      Consistent tree times waiting (refresh.finish cache) := by
  unfold Refresh.finish
  split
  · exact ⟨rfl, h.traced _⟩
  · exact ⟨rfl, h⟩

end Loads

end Cache

namespace System

/-! ### The invariant of a system -/

/-- The inbox is open with `waiting` in it, and everything that has been read is told apart from
what has changed since. -/
structure Invariant (system : System) (waiting : List Change) : Prop where
  connected : system.cache.inbox = some ⟨waiting, true⟩
  consistent : Cache.Consistent system.tree system.times waiting system.cache
  sound : ∀ refresh, system.refresh = some refresh →
    refresh.Sound system.tree system.times waiting system.cache

theorem Invariant.withCache {system : System} {waiting : List Change} {cache : Cache}
    (hidle : system.refresh = none) (hconnected : cache.inbox = some ⟨waiting, true⟩)
    (hconsistent : Cache.Consistent system.tree system.times waiting cache) :
    (system.withCache cache).Invariant waiting := by
  refine ⟨hconnected, hconsistent, ?_⟩
  intro refresh hbusy
  have hnone : none = some refresh := hidle.symm.trans hbusy
  cases hnone

theorem Invariant.examine {system : System} {waiting : List Change} (h : system.Invariant waiting)
    (path : String) : (system.examine path).Invariant (waiting ++
      (system.session.monitor.poller.examine (path, system.tree.modified? path)).1.toList) := by
  set examined := system.session.monitor.poller.examine (path, system.tree.modified? path)
    with hexamined
  have hcache : (system.examine path).cache =
      { system.cache with inbox := some ⟨waiting ++ examined.1.toList, true⟩ } := by
    show (system.cache.send examined.1.toList).2 = _
    simp [Cache.send, h.connected, Inbox.send]
  have htimes : (system.examine path).times = examined.2.times := rfl
  refine ⟨by rw [hcache], ?_, ?_⟩
  · rw [hcache, htimes]
    exact (Cache.Consistent.examine h.consistent).of_inbox _
  · intro refresh hbusy
    rw [hcache, htimes]
    exact ((h.sound refresh hbusy).transfer h.consistent
      (Cache.keeps_of_examine _ _ _ _ path)).of_inbox _

theorem Invariant.step {system after : System} {waiting : List Change}
    (h : system.Invariant waiting) (hstep : Step system after) :
    ∃ waiting', after.Invariant waiting' := by
  have hdrained := h.consistent.drain h.connected
  cases hstep with
  | write path content time hwrite hlater =>
      refine ⟨waiting, h.connected, h.consistent.write hwrite hlater, ?_⟩
      intro refresh hbusy
      exact (h.sound refresh hbusy).transfer h.consistent
        (Cache.keeps_of_write h.consistent hwrite hlater)
  | examine path => exact ⟨_, h.examine path⟩
  | @note change rest hidle hinbox =>
      obtain rfl : waiting = change :: rest := by simpa [h.connected] using hinbox
      set taken : Cache := { system.cache with inbox := some ⟨rest, true⟩ }
      have htaken : Cache.Consistent system.tree system.times (change :: rest) taken :=
        h.consistent.of_inbox _
      have hnoted := htaken.handleChange
      have hframe := Cache.frame_handleChange taken system.tree change
      exact ⟨rest, Invariant.withCache hidle hframe.inbox hnoted⟩
  | drain hidle => exact ⟨[], Invariant.withCache hidle hdrained.1 hdrained.2⟩
  | plan query hidle => exact ⟨[], Invariant.withCache hidle hdrained.1 hdrained.2⟩
  | tables hidle => exact ⟨[], Invariant.withCache hidle hdrained.1 hdrained.2⟩
  | describe name hidle => exact ⟨[], Invariant.withCache hidle hdrained.1 hdrained.2⟩
  | refresh names hidle =>
      refine ⟨waiting, h.connected, h.consistent, ?_⟩
      rintro refresh ⟨rfl⟩
      exact Cache.Refresh.sound_of_choosing rfl
  | engine refusals =>
      exact ⟨waiting, h.connected, h.consistent.of_refusals refusals, fun refresh hbusy =>
        (h.sound refresh hbusy).of_refusals refusals⟩
  | execute query hidle =>
      refine ⟨[], hdrained.1, hdrained.2, ?_⟩
      rintro refresh ⟨rfl⟩
      exact Cache.Refresh.sound_of_choosing rfl
  | advance hbusy =>
      obtain ⟨hframe, hconsistent, hsound⟩ := h.consistent.advance (h.sound _ hbusy)
      refine ⟨waiting, hframe.inbox.trans h.connected, hconsistent, ?_⟩
      rintro refresh ⟨rfl⟩
      exact hsound
  | finish hbusy hdone =>
      obtain ⟨hinbox, hconsistent⟩ := h.consistent.finish _
      refine ⟨waiting, hinbox.trans h.connected, hconsistent, ?_⟩
      rintro refresh ⟨⟩

/-! ### The start of a session -/

theorem registerAll_snd (cache : Cache) (tree : Tree) (changes : List Change) :
    (Session.registerAll cache tree changes).2 = cache.handleChanges tree changes := by
  induction changes generalizing cache with
  | nil => rfl
  | cons change rest ih =>
      rw [Cache.handleChanges, ← ih, Session.registerAll]
      dsimp only
      split <;> rfl

theorem snapshotListed_spec (tree : Tree) (paths : List String) (poller : Poller) :
    (∀ path time, (poller.snapshotListed
        (paths.map fun path => (path, tree.modified? path))).2.times.find? path = some time →
      poller.times.find? path = some time ∨ tree.modified? path = .ok time) ∧
    ∀ change ∈ (poller.snapshotListed (paths.map fun path => (path, tree.modified? path))).1,
      change.fileName = (Path.fileName? change.path).getD "" := by
  induction paths generalizing poller with
  | nil => exact ⟨fun path time hseen => Or.inl hseen, by simp [Poller.snapshotListed]⟩
  | cons path rest ih =>
      rw [List.map_cons]
      cases hmodified : tree.modified? path with
      | error fault => exact ih poller
      | ok modified =>
          obtain ⟨htimes, hchanges⟩ := ih (poller.remember path modified)
          constructor
          · intro other time hseen
            rcases htimes other time hseen with hbefore | hnow
            · rcases NameMap.find?_insert_eq_some_iff.1 hbefore with ⟨rfl, rfl⟩ | ⟨_, hbefore⟩
              · exact Or.inr hmodified
              · exact Or.inl hbefore
            · exact Or.inr hnow
          · intro change hchange
            rcases List.mem_cons.1 hchange with rfl | hchange
            · rfl
            · exact hchanges change hchange

theorem listing_eq_ok {tree : Tree} {directory extension : String} {files : List Listed}
    (h : Watch.listing tree directory extension = .ok files) :
    ∃ paths : List String, files = paths.map fun path => (path, tree.modified? path) := by
  simp only [Watch.listing, bind, Except.bind] at h
  split at h
  · cases h
  · exact ⟨_, (Except.ok.inj h).symm⟩

theorem invariant_of_start {settings : Settings} {delimiter : UInt8} {connection : Connection}
    {tree : Tree} {session : Session} {count : Nat}
    (hstart : (Session.onConnection settings delimiter connection).start tree =
      (.ok count, session)) : Invariant ⟨tree, session, none⟩ [] := by
  set initial := Session.onConnection settings delimiter connection with hinitial
  have hidle : (initial.monitor.state != .idle) = false := rfl
  simp only [Session.start, Monitor.start, hidle, Bool.false_eq_true, ↓reduceIte] at hstart
  cases hlisting : initial.monitor.poller.listing tree with
  | error fault => simp [hlisting, Poller.snapshot] at hstart
  | ok files =>
      obtain ⟨paths, rfl⟩ := listing_eq_ok hlisting
      obtain ⟨htimes, hsent⟩ := snapshotListed_spec tree paths initial.monitor.poller
      simp only [hlisting, Poller.snapshot, Prod.mk.injEq] at hstart
      obtain ⟨_, rfl⟩ := hstart
      set snapshot := initial.monitor.poller.snapshotListed
        (paths.map fun path => (path, tree.modified? path))
      -- there are no tables yet, so the changes of the snapshot may wait like any others
      have hbegun : Cache.Consistent tree snapshot.2.times snapshot.1 initial.cache.attach := by
        refine ⟨?_, ?_, hsent, ?_, ?_⟩
        · intro key entry hentry
          simp [hinitial, Session.onConnection, Cache.new, Cache.attach] at hentry
        · intro path time hseen
          rcases htimes path time hseen with hbefore | hnow
          · simp [hinitial, Session.onConnection, Monitor.new, Poller.new] at hbefore
          · exact ⟨time, hnow, le_rfl⟩
        · intro key entry hentry
          simp [hinitial, Session.onConnection, Cache.new, Cache.attach] at hentry
        · intro key entry hentry
          simp [hinitial, Session.onConnection, Cache.new, Cache.attach] at hentry
      have hframe : Cache.Frame initial.cache.attach
          (initial.cache.attach.handleChanges tree snapshot.1) :=
        Cache.handleChanges_induction (motive := Cache.Frame initial.cache.attach) tree
          (fun after change h => h.trans (Cache.frame_handleChange after tree change)) _
          (Cache.Frame.refl _)
      have hregistered := registerAll_snd initial.cache.attach tree snapshot.1
      refine ⟨?_, ?_, ?_⟩
      · exact (congrArg Cache.inbox hregistered).trans hframe.inbox
      · exact hregistered ▸ hbegun.handleChanges
      · rintro refresh ⟨⟩

/-! ### The theorem -/

theorem Reachable.invariant {system : System} (h : system.Reachable) :
    ∃ waiting, system.Invariant waiting := by
  induction h with
  | start hstart => exact ⟨[], invariant_of_start hstart⟩
  | step _ hstep ih =>
      obtain ⟨waiting, hwaiting⟩ := ih
      exact hwaiting.step hstep

/-- A clean table of which no change waits, and whose file the monitor has seen as it is now, is as
its file says now. -/
theorem loaded_of_settled {system : System} (hreachable : system.Reachable) {key : String}
    {entry : Cache.Entry} (hentry : system.cache.entries.find? key = some entry)
    (hclean : entry.table.dirty = false)
    (hwaiting : ∀ change ∈ system.cache.waiting,
      (nameFor? change.fileName system.cache.extension).map lower ≠ some key)
    (hseen : ∃ modified, system.tree.modified? entry.path = .ok modified ∧
      system.times.find? entry.path = some modified) :
    system.cache.Loaded system.tree entry := by
  obtain ⟨waiting, hinvariant⟩ := hreachable.invariant
  have hsame : system.cache.waiting = waiting := by
    simp [Cache.waiting, hinvariant.connected]
  exact hinvariant.consistent.current key entry hentry hclean ⟨hsame ▸ hwaiting, hseen⟩

/-! ### A session with one file -/

open Cache (oneFile oneFileTable)

def oneFileSettings : Settings :=
  { Settings.standard with directory := "/", «extension» := "c", hasHeaders := false }

def oneFileSession : Session where
  settings := oneFileSettings
  cache := (Session.onConnection oneFileSettings 44 .inMemory).cache.attach.withEntry
    ⟨oneFileTable, "/a.c"⟩ [] (Cache.recreateSpans oneFileTable)
  monitor := ⟨(Poller.new "/" "c").remember "/a.c" 5, .running⟩

def oneFileSystem : System where
  tree := oneFile
  session := { oneFileSession with
    cache := (oneFileSession.cache.ensureFresh oneFile ["a"]).2 }
  refresh := none

theorem modified?_oneFile : oneFile.modified? "/a.c" = .ok 5 :=
  Tree.modified?_eq_ok_iff.2 ⟨1, [49], Cache.stat_oneFile⟩

theorem listing_oneFile :
    (Session.onConnection oneFileSettings 44 .inMemory).monitor.poller.listing oneFile =
      .ok [("/a.c", .ok 5)] := by
  have hlist : oneFile.list "/" = .ok ["a.c"] := by cbv
  have hfile : oneFile.isFile "/a.c" = true := by
    have hstat : oneFile.stat "/a.c" = _ := Cache.stat_oneFile
    simp [Tree.isFile, hstat]
  have hwatched : (["a.c"].filter (hasExtension "c")).map (Path.join "/") = ["/a.c"] := by decide
  show Watch.listing oneFile "/" "c" = _
  rw [Watch.listing, hlist]
  simp [bind, Except.bind, hwatched, hfile, modified?_oneFile]

theorem start_oneFile : (Session.onConnection oneFileSettings 44 .inMemory).start oneFile =
    (.ok 1, oneFileSession) := by
  set initial := Session.onConnection oneFileSettings 44 .inMemory with hinitial
  have hchange : initial.cache.attach.handleChange oneFile (changeAt "/a.c" 5) =
      (.ok .created, oneFileSession.cache) := Cache.handleChange_oneFile rfl rfl rfl
  have hidle : (initial.monitor.state != .idle) = false := rfl
  simp only [Session.start, Monitor.start, hidle, hinitial ▸ listing_oneFile, Poller.snapshot,
    Poller.snapshotListed, Session.registerAll, hchange, Bool.false_eq_true, ↓reduceIte]
  rfl

theorem entry_oneFileSystem :
    oneFileSystem.cache.entries.find? "a" = some ⟨oneFileTable.markClean, "/a.c"⟩ := by
  have hcache := (invariant_of_start start_oneFile).consistent.wellFormed
  have hentry : oneFileSession.cache.entries.find? "a" = some ⟨oneFileTable, "/a.c"⟩ := rfl
  have hloading := @Cache.loading_oneFile oneFileSession.cache rfl
  have hnames : ((nameSet ["a"]).filter fun name => lower name == "a") = ["a"] := by decide
  exact (Cache.refreshEach_of_loading hcache hentry rfl hloading hnames).1

theorem loaded_of_settled_oneFile :
    oneFileSystem.cache.Loaded oneFileSystem.tree ⟨oneFileTable.markClean, "/a.c"⟩ := by
  have hreachable : oneFileSystem.Reachable := (Reachable.start start_oneFile).ensureFresh ["a"]
  have hcache : oneFileSession.cache.WellFormed :=
    (invariant_of_start start_oneFile).consistent.wellFormed
  have hframe := Cache.frame_refreshEach hcache oneFile (nameSet ["a"])
  have hinbox : oneFileSystem.cache.inbox = some ⟨[], true⟩ := hframe.inbox
  refine loaded_of_settled hreachable entry_oneFileSystem rfl ?_ ⟨5, modified?_oneFile, by decide⟩
  simp [Cache.waiting, hinbox]

end System

end LiveTables
