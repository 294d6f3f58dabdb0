import LiveTables.Proofs.DirectoryListing
import LiveTables.Proofs.NameMapLookup

/-!
# What a poller reports over a run

A poller keeps one time for each path. It is the greatest of the times at which the poller saw the
file since the last snapshot that saw it, so a poll reports what is newer than all of these. The
invariant is carried from call to call; files that come and go, cannot be examined or go back in
time only decide which calls saw them.
-/

namespace LiveTables.Watch

open LiveTables.Files

/-- What one poll or snapshot meets: the files when the directory is listed, and the time that each
file gives when it is examined after that. -/
structure View where
  tree : Tree
  modified? : String → Except Fault Int

namespace View

/-- Files that stay as they are while the directory is looked at. -/
def still (tree : Tree) : View := ⟨tree, tree.modified?⟩

def listing (view : View) (directory extension : String) : Listing := do
  let names ← view.tree.list directory
  let paths := (names.filter (hasExtension extension)).map (Path.join directory)
  .ok ((paths.filter view.tree.isFile).map fun path => (path, view.modified? path))

/-- A regular file with the watched extension stands at a path of the directory. -/
def Lists (view : View) (directory extension path : String) : Prop :=
  ∃ names name, view.tree.list directory = .ok names ∧ name ∈ names ∧
    hasExtension extension name = true ∧ path = Path.join directory name ∧
      view.tree.isFile path = true

/-- A listed file can be examined and was last written at a time. -/
def Shows (view : View) (directory extension path : String) (time : Int) : Prop :=
  view.Lists directory extension path ∧ view.modified? path = .ok time

def Fails (view : View) (directory extension path : String) : Prop :=
  view.Lists directory extension path ∧ ∃ fault, view.modified? path = .error fault

variable {directory extension : String}

theorem listing_still (tree : Tree) :
    (still tree).listing directory extension = Watch.listing tree directory extension :=
  rfl

theorem listing_eq_error {view : View} {fault : Fault}
    (h : view.tree.list directory = .error fault) :
    view.listing directory extension = .error fault := by
  simp [listing, h, bind, Except.bind]

/-- A listing has the watched files of the directory in the order of their paths, each once. -/
theorem listing_eq_ok {view : View} {files : List Listed}
    (h : view.listing directory extension = .ok files) :
    files.Pairwise (·.1 < ·.1) ∧ ∀ path result, (path, result) ∈ files ↔
      view.Lists directory extension path ∧ view.modified? path = result := by
  unfold listing at h
  cases hlist : view.tree.list directory with
  | error fault => simp [hlist, bind, Except.bind] at h
  | ok names =>
      simp only [hlist, bind, Except.bind, Except.ok.injEq] at h
      subst h
      obtain ⟨hascending, hslash⟩ := Tree.list_eq_ok hlist
      constructor
      · obtain ⟨before, hjoin⟩ := Path.exists_join_eq_append directory
        refine List.pairwise_map.2 (List.Pairwise.filter _ (List.pairwise_map.2 ?_))
        refine (hascending.filter _).imp_of_mem fun hfirst hsecond hlt => ?_
        rw [hjoin _ (hslash _ (List.mem_of_mem_filter hfirst)),
          hjoin _ (hslash _ (List.mem_of_mem_filter hsecond))]
        exact append_lt_append before hlt
      · intro path result
        simp only [Lists, hlist, List.mem_map, List.mem_filter, Prod.mk.injEq]
        constructor
        · rintro ⟨_, ⟨⟨name, ⟨hname, hwatched⟩, rfl⟩, hfile⟩, rfl, rfl⟩
          exact ⟨⟨names, name, rfl, hname, hwatched, rfl, hfile⟩, rfl⟩
        · rintro ⟨⟨_, name, hnames, hname, hwatched, rfl, hfile⟩, rfl⟩
          cases hnames
          exact ⟨_, ⟨⟨name, ⟨hname, hwatched⟩, rfl⟩, hfile⟩, rfl, rfl⟩

end View

namespace Poller

/-! ### One look at each of some files -/

section Files

variable {poller : Poller} {files : List Listed}

theorem examine_ok (poller : Poller) (path : String) (time : Int) :
    poller.examine (path, .ok time) = if poller.isNewer path time then
      (some (changeAt path time), poller.remember path time) else (none, poller) :=
  rfl

theorem find?_examine_of_ne {file : Listed} {path : String} (hpath : path ≠ file.1) :
    (poller.examine file).2.times.find? path = poller.times.find? path := by
  obtain ⟨listed, result⟩ := file
  cases result with
  | error fault => rfl
  | ok time =>
      rw [examine_ok]
      split_ifs
      · exact NameMap.find?_insert_of_ne _ hpath _
      · rfl

theorem examine_congr {other : Poller} {file : Listed}
    (h : other.times.find? file.1 = poller.times.find? file.1) :
    (other.examine file).1 = (poller.examine file).1 ∧
      (other.examine file).2.times.find? file.1 = (poller.examine file).2.times.find? file.1 := by
  obtain ⟨listed, result⟩ := file
  cases result with
  | error fault => exact ⟨rfl, h⟩
  | ok time =>
      have hnewer : other.isNewer listed time = poller.isNewer listed time := by
        simp only [isNewer, h]
      rw [examine_ok, examine_ok, hnewer]
      by_cases hnew : poller.isNewer listed time = true
      · simp [hnew, remember, NameMap.find?_insert_self]
      · simpa [hnew] using h

/-- Files with different paths do not matter to each other: each is examined as if it were alone. -/
theorem examineAll_spec (poller : Poller) (hnodup : (files.map (·.1)).Nodup) :
    (poller.examineAll files).1 = files.filterMap (fun file => (poller.examine file).1) ∧
      (∀ file ∈ files, (poller.examineAll files).2.times.find? file.1 =
        (poller.examine file).2.times.find? file.1) ∧
      ∀ path, path ∉ files.map (·.1) →
        (poller.examineAll files).2.times.find? path = poller.times.find? path := by
  induction files generalizing poller with
  | nil => exact ⟨rfl, by simp, fun _ _ => rfl⟩
  | cons file rest ih =>
      obtain ⟨hfile, hrest⟩ := List.nodup_cons.1 hnodup
      obtain ⟨hchanges, hlisted, hothers⟩ := ih (poller.examine file).2 hrest
      have hapart : ∀ other ∈ rest, other.1 ≠ file.1 := fun other hother heq =>
        hfile (List.mem_map.2 ⟨other, hother, heq⟩)
      have hsame : ∀ other ∈ rest, ((poller.examine file).2.examine other).1 =
          (poller.examine other).1 ∧ ((poller.examine file).2.examine other).2.times.find? other.1 =
            (poller.examine other).2.times.find? other.1 := fun other hother =>
        examine_congr (find?_examine_of_ne (hapart other hother))
      refine ⟨?_, ?_, ?_⟩
      · have hcongr : rest.filterMap (fun other => ((poller.examine file).2.examine other).1) =
            rest.filterMap (fun other => (poller.examine other).1) :=
          List.filterMap_congr fun other hother => (hsame other hother).1
        have hall : (poller.examineAll (file :: rest)).1 = (poller.examine file).1.toList ++
            ((poller.examine file).2.examineAll rest).1 := rfl
        rw [hall, hchanges, hcongr, List.filterMap_cons]
        cases (poller.examine file).1 with
        | none => rfl
        | some change => rfl
      · intro other hother
        rcases List.mem_cons.1 hother with rfl | hother
        · exact hothers other.1 hfile
        · exact (hlisted other hother).trans (hsame other hother).2
      · intro path hpath
        rw [List.map_cons, List.mem_cons, not_or] at hpath
        exact (hothers path hpath.2).trans (find?_examine_of_ne hpath.1)

theorem find?_snapshotListed (poller : Poller) (hnodup : (files.map (·.1)).Nodup) :
    (∀ path time, (path, .ok time) ∈ files →
        (poller.snapshotListed files).2.times.find? path = some time) ∧
      ∀ path, (∀ time, (path, .ok time) ∉ files) →
        (poller.snapshotListed files).2.times.find? path = poller.times.find? path := by
  induction files generalizing poller with
  | nil => exact ⟨by simp, fun _ _ => rfl⟩
  | cons file rest ih =>
      obtain ⟨listed, result⟩ := file
      obtain ⟨hfile, hrest⟩ := List.nodup_cons.1 hnodup
      cases result with
      | error fault =>
          obtain ⟨hshown, hothers⟩ := ih poller hrest
          refine ⟨fun path time hmem => hshown path time ?_, fun path hpath => hothers path ?_⟩
          · simpa using hmem
          · exact fun time hmem => hpath time (List.mem_cons_of_mem _ hmem)
      | ok modified =>
          obtain ⟨hshown, hothers⟩ := ih (poller.remember listed modified) hrest
          constructor
          · intro path time hmem
            rcases List.mem_cons.1 hmem with heq | hmem
            · cases heq
              have hunlisted : ∀ other, (listed, .ok other) ∉ rest := fun other hother =>
                hfile (List.mem_map.2 ⟨_, hother, rfl⟩)
              exact (hothers listed hunlisted).trans (NameMap.find?_insert_self _ _ _)
            · exact hshown path time hmem
          · intro path hpath
            have hne : path ≠ listed := by
              rintro rfl
              exact hpath modified List.mem_cons_self
            exact (hothers path fun time hmem => hpath time (List.mem_cons_of_mem _ hmem)).trans
              (NameMap.find?_insert_of_ne _ hne _)

end Files

end Poller

/-! ### Runs -/

inductive Call where
  | snapshot (view : View)
  | poll (view : View)

namespace Call

def view : Call → View
  | snapshot view => view
  | poll view => view

def isSnapshot : Call → Bool
  | snapshot _ => true
  | poll _ => false

end Call

namespace Poller

/-- What a poll gives for a view of the directory. -/
def pollAt (poller : Poller) (view : View) : Stats × List Change × Poller :=
  poller.poll (view.listing poller.directory poller.extension)

def call (poller : Poller) : Call → Poller
  | .snapshot view => (poller.snapshot (view.listing poller.directory poller.extension)).2
  | .poll view => (poller.pollAt view).2.2

def run (poller : Poller) (calls : List Call) : Poller := calls.foldl call poller

theorem run_concat (poller : Poller) (calls : List Call) (last : Call) :
    poller.run (calls ++ [last]) = (poller.run calls).call last :=
  List.foldl_concat ..

end Poller

section Seen

variable (directory extension : String)

/-- The times at which calls saw the file at a path, since the last snapshot that saw it. -/
def seenTimes (calls : List Call) (path : String) : Set Int :=
  {time | ∃ before call after, calls = before ++ call :: after ∧
    call.view.Shows directory extension path time ∧
    ∀ later ∈ after, later.isSnapshot = true →
      ∀ other, ¬ later.view.Shows directory extension path other}

variable {directory extension : String} {calls : List Call} {path : String} {time : Int}

theorem Shows.unique {view : View} {other : Int} (h : view.Shows directory extension path time)
    (hother : view.Shows directory extension path other) : other = time :=
  Except.ok.inj (hother.2.symm.trans h.2)

theorem mem_seenTimes_concat_iff {last : Call} :
    time ∈ seenTimes directory extension (calls ++ [last]) path ↔
      last.view.Shows directory extension path time ∨
        time ∈ seenTimes directory extension calls path ∧ (last.isSnapshot = true →
          ∀ other, ¬ last.view.Shows directory extension path other) := by
  constructor
  · rintro ⟨before, call, after, hcalls, hshows, hafter⟩
    rcases List.eq_nil_or_concat after with rfl | ⟨init, final, rfl⟩
    · obtain ⟨rfl, rfl⟩ := List.append_inj' hcalls rfl |>.imp id List.singleton_inj.1
      exact Or.inl hshows
    · rw [List.concat_eq_append, ← List.cons_append, ← List.append_assoc] at hcalls
      obtain ⟨rfl, hlast⟩ := List.append_inj' hcalls rfl
      obtain rfl := List.singleton_inj.1 hlast
      simp only [List.concat_eq_append, List.mem_append, List.mem_singleton] at hafter
      exact Or.inr ⟨⟨before, call, init, rfl, hshows, fun later hlater =>
        hafter later (Or.inl hlater)⟩, hafter last (Or.inr rfl)⟩
  · rintro (hshows | ⟨⟨before, call, after, rfl, hshows, hafter⟩, hlast⟩)
    · exact ⟨calls, last, [], rfl, hshows, by simp⟩
    · refine ⟨before, call, after ++ [last], by simp, hshows, fun later hlater => ?_⟩
      rcases List.mem_append.1 hlater with hlater | hlater
      · exact hafter later hlater
      · rw [List.mem_singleton.1 hlater]
        exact hlast

theorem seenTimes_concat_of_unseen {last : Call}
    (h : ∀ other, ¬ last.view.Shows directory extension path other) :
    seenTimes directory extension (calls ++ [last]) path =
      seenTimes directory extension calls path := by
  ext seen
  rw [mem_seenTimes_concat_iff]
  exact ⟨fun hseen => (hseen.resolve_left (h seen)).1, fun hseen => Or.inr ⟨hseen, fun _ => h⟩⟩

theorem seenTimes_snapshot {view : View} (h : view.Shows directory extension path time) :
    seenTimes directory extension (calls ++ [.snapshot view]) path = {time} := by
  ext seen
  rw [mem_seenTimes_concat_iff]
  constructor
  · rintro (hseen | ⟨_, hnever⟩)
    · exact Shows.unique h hseen
    · exact absurd h (hnever rfl time)
  · rintro rfl
    exact Or.inl h

theorem seenTimes_poll {view : View} (h : view.Shows directory extension path time) :
    seenTimes directory extension (calls ++ [.poll view]) path =
      insert time (seenTimes directory extension calls path) := by
  ext seen
  rw [mem_seenTimes_concat_iff, Set.mem_insert_iff]
  constructor
  · rintro (hseen | ⟨hseen, _⟩)
    · exact Or.inl (Shows.unique h hseen)
    · exact Or.inr hseen
  · rintro (rfl | hseen)
    · exact Or.inl h
    · exact Or.inr ⟨hseen, nofun⟩

end Seen

namespace Poller

/-! ### What a call does to the times -/

section Calls

variable {poller : Poller} {view : View} {files : List Listed} {path : String} {time : Int}

theorem exists_times_examineAll (poller : Poller) (files : List Listed) :
    ∃ times, (poller.examineAll files).2 = { poller with times } := by
  induction files generalizing poller with
  | nil => exact ⟨poller.times, rfl⟩
  | cons file rest ih =>
      obtain ⟨path, result⟩ := file
      cases result with
      | error fault => exact ih poller
      | ok time =>
          obtain ⟨times, hrest⟩ := ih (poller.examine (path, .ok time)).2
          refine ⟨times, hrest.trans ?_⟩
          rw [examine_ok]
          split_ifs <;> rfl

theorem exists_times_snapshotListed (poller : Poller) (files : List Listed) :
    ∃ times, (poller.snapshotListed files).2 = { poller with times } := by
  induction files generalizing poller with
  | nil => exact ⟨poller.times, rfl⟩
  | cons file rest ih =>
      obtain ⟨path, result⟩ := file
      cases result with
      | error fault => exact ih poller
      | ok time =>
          obtain ⟨times, hrest⟩ := ih (poller.remember path time)
          exact ⟨times, hrest⟩

theorem call_of_unlisted {last : Call} {fault : Fault}
    (h : last.view.listing poller.directory poller.extension = .error fault) :
    poller.call last = poller := by
  cases last with
  | snapshot view =>
      rw [Call.view] at h
      simp only [call, snapshot, h]
  | poll view =>
      rw [Call.view] at h
      simp only [call, pollAt, poll, h]

theorem snapshot_of_listing (h : view.listing poller.directory poller.extension = .ok files) :
    poller.call (.snapshot view) = (poller.snapshotListed files).2 := by
  simp only [call, snapshot, h]

theorem pollAt_of_listing (h : view.listing poller.directory poller.extension = .ok files) :
    poller.pollAt view = (⟨files.length, (poller.examineAll files).1.length,
      (files.filter isFault).length⟩,
      (poller.examineAll files).1, (poller.examineAll files).2) := by
  simp only [pollAt, poll, h]

theorem poll_of_listing (h : view.listing poller.directory poller.extension = .ok files) :
    poller.call (.poll view) = (poller.examineAll files).2 := by
  rw [call, pollAt_of_listing h]

theorem exists_times_call (poller : Poller) (last : Call) :
    ∃ times, poller.call last = { poller with times } := by
  cases hlisting : last.view.listing poller.directory poller.extension with
  | error fault => exact ⟨poller.times, call_of_unlisted hlisting⟩
  | ok files =>
      cases last with
      | snapshot view =>
          rw [Call.view] at hlisting
          rw [snapshot_of_listing hlisting]
          exact exists_times_snapshotListed poller files
      | poll view =>
          rw [Call.view] at hlisting
          rw [poll_of_listing hlisting]
          exact exists_times_examineAll poller files

theorem nodup_paths (h : files.Pairwise (·.1 < ·.1)) : (files.map (·.1)).Nodup :=
  List.pairwise_map.2 (h.imp ne_of_lt)

/-- A directory that has a file can be listed. -/
theorem listing_of_lists {directory extension : String} (h : view.Lists directory extension path) :
    ∃ files, view.listing directory extension = .ok files := by
  obtain ⟨names, _, hnames, _⟩ := h
  rw [View.listing, hnames]
  exact ⟨_, rfl⟩

theorem find?_call_of_unseen {last : Call}
    (h : ∀ other, ¬ last.view.Shows poller.directory poller.extension path other) :
    (poller.call last).times.find? path = poller.times.find? path := by
  cases hlisting : last.view.listing poller.directory poller.extension with
  | error fault => rw [call_of_unlisted hlisting]
  | ok files =>
      obtain ⟨hascending, hmem⟩ := View.listing_eq_ok hlisting
      have hnever : ∀ time, (path, .ok time) ∉ files := fun time htime =>
        h time ((hmem path _).1 htime)
      cases last with
      | snapshot view =>
          rw [Call.view] at hlisting
          rw [snapshot_of_listing hlisting]
          exact (find?_snapshotListed poller (nodup_paths hascending)).2 path hnever
      | poll view =>
          rw [Call.view] at hlisting
          rw [poll_of_listing hlisting]
          obtain ⟨_, hlisted, hothers⟩ := examineAll_spec poller (nodup_paths hascending)
          by_cases hpath : path ∈ files.map (·.1)
          · obtain ⟨⟨_, result⟩, hfile, rfl⟩ := List.mem_map.1 hpath
            refine (hlisted _ hfile).trans ?_
            cases result with
            | error fault => rfl
            | ok time => exact absurd hfile (hnever time)
          · exact hothers path hpath

theorem find?_snapshot_of_shows (h : view.Shows poller.directory poller.extension path time) :
    (poller.call (.snapshot view)).times.find? path = some time := by
  obtain ⟨files, hlisting⟩ := listing_of_lists h.1
  obtain ⟨hascending, hmem⟩ := View.listing_eq_ok hlisting
  rw [snapshot_of_listing hlisting]
  exact (find?_snapshotListed poller (nodup_paths hascending)).1 path time ((hmem path _).2 h)

theorem find?_poll_of_shows (h : view.Shows poller.directory poller.extension path time) :
    (poller.call (.poll view)).times.find? path = some (match poller.times.find? path with
      | some previous => max time previous
      | none => time) := by
  obtain ⟨files, hlisting⟩ := listing_of_lists h.1
  obtain ⟨hascending, hmem⟩ := View.listing_eq_ok hlisting
  have hlisted := (examineAll_spec poller (nodup_paths hascending)).2.1
    (path, .ok time) ((hmem path _).2 h)
  rw [poll_of_listing hlisting, hlisted, examine_ok]
  by_cases hnew : poller.isNewer path time = true
  · have hkept : (poller.remember path time).times.find? path = some time :=
      NameMap.find?_insert_self _ _ _
    rw [if_pos hnew, hkept]
    cases hprevious : poller.times.find? path with
    | none => rfl
    | some previous =>
        have hlt : previous < time := by simpa [isNewer, hprevious] using hnew
        simp [hlt.le]
  · rw [if_neg hnew]
    cases hprevious : poller.times.find? path with
    | none => simp [isNewer, hprevious] at hnew
    | some previous =>
        have hle : time ≤ previous := by simpa [isNewer, hprevious] using hnew
        simp [hle]

theorem mem_changes_pollAt_iff {change : Change} : change ∈ (poller.pollAt view).2.1 ↔
    ∃ path time, view.Shows poller.directory poller.extension path time ∧
      poller.isNewer path time = true ∧ change = changeAt path time := by
  cases hlisting : view.listing poller.directory poller.extension with
  | error fault =>
      have hnone : (poller.pollAt view).2.1 = [] := by simp only [pollAt, poll, hlisting]
      simp only [hnone, List.not_mem_nil, false_iff]
      rintro ⟨path, time, hshows, _⟩
      obtain ⟨files, hfiles⟩ := listing_of_lists hshows.1
      simp [hlisting] at hfiles
  | ok files =>
      obtain ⟨hascending, hmem⟩ := View.listing_eq_ok hlisting
      rw [pollAt_of_listing hlisting, (examineAll_spec _ (nodup_paths hascending)).1,
        List.mem_filterMap]
      constructor
      · rintro ⟨⟨path, result⟩, hfile, hchange⟩
        cases result with
        | error fault => cases hchange
        | ok time =>
            rw [examine_ok] at hchange
            split_ifs at hchange with hnew
            · exact ⟨path, time, (hmem path _).1 hfile, hnew, (Option.some.inj hchange).symm⟩
      · rintro ⟨path, time, hshows, hnew, rfl⟩
        exact ⟨(path, .ok time), (hmem path _).2 hshows, by rw [examine_ok, if_pos hnew]⟩

theorem pairwise_changes_pollAt (poller : Poller) (view : View) :
    (poller.pollAt view).2.1.Pairwise (·.path < ·.path) := by
  cases hlisting : view.listing poller.directory poller.extension with
  | error fault => simp only [pollAt, poll, hlisting, List.Pairwise.nil]
  | ok files =>
      obtain ⟨hascending, _⟩ := View.listing_eq_ok hlisting
      rw [pollAt_of_listing hlisting, (examineAll_spec _ (nodup_paths hascending)).1]
      have hpath : ∀ (file : Listed) (change : Change),
          (poller.examine file).1 = some change → change.path = file.1 := by
        rintro ⟨path, result⟩ change hchange
        cases result with
        | error fault => cases hchange
        | ok time =>
            rw [examine_ok] at hchange
            split_ifs at hchange
            · rw [← Option.some.inj hchange]
              rfl
      refine hascending.filterMap _ fun file other hlt change hchange second hsecond => ?_
      rwa [hpath file change hchange, hpath other second hsecond]

end Calls

/-! ### The times remembered are the greatest ones seen -/

/-- A poller remembers for each path the greatest of the times at which it was seen. -/
structure Remembers (poller : Poller) (calls : List Call) : Prop where
  never : ∀ path, poller.times.find? path = none →
    seenTimes poller.directory poller.extension calls path = ∅
  greatest : ∀ path time, poller.times.find? path = some time →
    IsGreatest (seenTimes poller.directory poller.extension calls path) time

theorem Remembers.isNewer_iff {poller : Poller} {calls : List Call} (h : poller.Remembers calls)
    {path : String} {time : Int} : poller.isNewer path time = true ↔
      ∀ seen ∈ seenTimes poller.directory poller.extension calls path, seen < time := by
  unfold isNewer
  cases hprevious : poller.times.find? path with
  | none => simp [h.never path hprevious]
  | some previous =>
      have hgreatest := h.greatest path previous hprevious
      simp only [decide_eq_true_eq]
      exact ⟨fun hlt seen hseen => (hgreatest.2 hseen).trans_lt hlt,
        fun hall => hall previous hgreatest.1⟩

theorem remembers_new (directory extension : String) :
    (new directory extension).Remembers [] :=
  ⟨fun path _ => by simp [seenTimes], fun path time htime => by simp [new] at htime⟩

theorem Remembers.call {poller : Poller} {calls : List Call} (h : poller.Remembers calls)
    (last : Call) : (poller.call last).Remembers (calls ++ [last]) := by
  obtain ⟨times, hafter⟩ := exists_times_call poller last
  -- what is remembered for one path, against the times at which that path was seen
  have hpath : ∀ path, ((poller.call last).times.find? path = none →
      seenTimes poller.directory poller.extension (calls ++ [last]) path = ∅) ∧
      ∀ time, (poller.call last).times.find? path = some time →
        IsGreatest (seenTimes poller.directory poller.extension (calls ++ [last]) path) time := by
    intro path
    by_cases hseen : ∃ time, last.view.Shows poller.directory poller.extension path time
    · obtain ⟨time, hshows⟩ := hseen
      cases last with
      | snapshot view =>
          rw [Call.view] at hshows
          rw [find?_snapshot_of_shows hshows, seenTimes_snapshot hshows]
          exact ⟨nofun, fun other hother => Option.some.inj hother ▸ isGreatest_singleton⟩
      | poll view =>
          rw [Call.view] at hshows
          rw [find?_poll_of_shows hshows, seenTimes_poll hshows]
          refine ⟨nofun, fun other hother => Option.some.inj hother ▸ ?_⟩
          cases hprevious : poller.times.find? path with
          | none =>
              rw [h.never path hprevious, insert_empty_eq]
              exact isGreatest_singleton
          | some previous => exact (h.greatest path previous hprevious).insert time
    · rw [not_exists] at hseen
      rw [find?_call_of_unseen hseen, seenTimes_concat_of_unseen hseen]
      exact ⟨h.never path, h.greatest path⟩
  rw [hafter] at hpath ⊢
  exact ⟨fun path => (hpath path).1, fun path => (hpath path).2⟩

theorem remembers_run (directory extension : String) (calls : List Call) :
    ((new directory extension).run calls).Remembers calls := by
  induction calls using List.reverseRecOn with
  | nil => exact remembers_new directory extension
  | append_singleton calls last ih =>
      rw [run_concat]
      exact ih.call last

theorem exists_times_run (poller : Poller) (calls : List Call) :
    ∃ times, poller.run calls = { poller with times } := by
  induction calls using List.reverseRecOn with
  | nil => exact ⟨poller.times, rfl⟩
  | append_singleton calls last ih =>
      obtain ⟨times, hcalls⟩ := ih
      rw [run_concat, hcalls]
      exact exists_times_call _ last

/-! ### Counts -/

theorem ncard_of_nodup {paths : List String} (h : paths.Nodup) :
    {path | path ∈ paths}.ncard = paths.length := by
  rw [← List.coe_toFinset, Set.ncard_coe_finset, List.toFinset_card_of_nodup h]

section Counts

variable {view : View} {directory extension : String} {files : List Listed}

theorem ncard_lists (h : view.listing directory extension = .ok files) :
    {path | view.Lists directory extension path}.ncard = files.length := by
  obtain ⟨hascending, hmem⟩ := View.listing_eq_ok h
  have hpaths : {path | view.Lists directory extension path} =
      {path | path ∈ files.map (·.1)} := by
    ext path
    simp only [Set.mem_ofPred_eq, List.mem_map, Prod.exists, exists_and_right, exists_eq_right]
    exact ⟨fun hlists => ⟨_, (hmem path _).2 ⟨hlists, rfl⟩⟩,
      fun ⟨result, hfile⟩ => ((hmem path result).1 hfile).1⟩
  rw [hpaths, ncard_of_nodup (nodup_paths hascending), List.length_map]

theorem ncard_fails (h : view.listing directory extension = .ok files) :
    {path | view.Fails directory extension path}.ncard = (files.filter isFault).length := by
  obtain ⟨hascending, hmem⟩ := View.listing_eq_ok h
  have hpaths : {path | view.Fails directory extension path} =
      {path | path ∈ (files.filter isFault).map (·.1)} := by
    ext path
    simp only [Set.mem_ofPred_eq, List.mem_map, List.mem_filter, Prod.exists]
    constructor
    · rintro ⟨hlists, fault, hfault⟩
      exact ⟨path, .error fault, ⟨(hmem path _).2 ⟨hlists, hfault⟩, rfl⟩, rfl⟩
    · rintro ⟨path, result, ⟨hfile, hfault⟩, rfl⟩
      obtain ⟨hlists, hresult⟩ := (hmem path result).1 hfile
      cases result with
      | error fault => exact ⟨hlists, fault, hresult⟩
      | ok time => cases hfault
  rw [hpaths, ncard_of_nodup (nodup_paths (hascending.filter _)), List.length_map]

variable {poller : Poller}

theorem pollAt_of_unlisted {fault : Fault} (h : view.tree.list poller.directory = .error fault) :
    poller.pollAt view = (⟨0, 0, 1⟩, [], poller) := by
  simp only [pollAt, poll, View.listing_eq_error h]

theorem seen_pollAt (poller : Poller) (view : View) : (poller.pollAt view).1.seen =
    {path | view.Lists poller.directory poller.extension path}.ncard := by
  cases hlisting : view.listing poller.directory poller.extension with
  | error fault =>
      have hnone : {path | view.Lists poller.directory poller.extension path} = ∅ := by
        ext path
        simp only [Set.mem_ofPred_eq, Set.mem_empty_iff_false, iff_false]
        intro hlists
        obtain ⟨files, hfiles⟩ := listing_of_lists hlists
        simp [hlisting] at hfiles
      simp only [pollAt, poll, hlisting, hnone, Set.ncard_empty]
  | ok files => rw [pollAt_of_listing hlisting, ncard_lists hlisting]

theorem changed_pollAt (poller : Poller) (view : View) :
    (poller.pollAt view).1.changed = (poller.pollAt view).2.1.length := by
  unfold pollAt poll
  cases view.listing poller.directory poller.extension with
  | error fault => rfl
  | ok files => rfl

theorem errors_pollAt (poller : Poller) {names : List String}
    (h : view.tree.list poller.directory = .ok names) : (poller.pollAt view).1.errors =
      {path | view.Fails poller.directory poller.extension path}.ncard := by
  have hlisting : ∃ files, view.listing poller.directory poller.extension = .ok files := by
    rw [View.listing, h]
    exact ⟨_, rfl⟩
  obtain ⟨files, hlisting⟩ := hlisting
  rw [pollAt_of_listing hlisting, ncard_fails hlisting]

end Counts

end Poller

section Reports

variable (directory extension : String)

/-- The poller of a directory after a run of calls. -/
def pollerAfter (calls : List Call) : Poller := (Poller.new directory extension).run calls

/-- What a poll counts when it meets a view of the directory, after the calls before it. -/
def statsAfter (calls : List Call) (view : View) : Stats :=
  ((pollerAfter directory extension calls).pollAt view).1

def changesAfter (calls : List Call) (view : View) : List Change :=
  ((pollerAfter directory extension calls).pollAt view).2.1

/-- A poll, after the calls before it, reports the files that are newer than they were ever seen to
be since the last snapshot. The files watched are those with the extension `watched`. -/
structure ReportsNews (watched : String) (calls : List Call) (view : View) : Prop where
  reported : ∀ change, change ∈ changesAfter directory extension calls view ↔
    ∃ path time, view.Shows directory watched path time ∧
      (∀ seen ∈ seenTimes directory watched calls path, seen < time) ∧ change = changeAt path time
  ascending : (changesAfter directory extension calls view).Pairwise (·.path < ·.path)
  seen : (statsAfter directory extension calls view).seen =
    {path | view.Lists directory watched path}.ncard
  changed : (statsAfter directory extension calls view).changed =
    (changesAfter directory extension calls view).length
  errors : ∀ names, view.tree.list directory = .ok names →
    (statsAfter directory extension calls view).errors =
      {path | view.Fails directory watched path}.ncard
  unlisted : ∀ fault, view.tree.list directory = .error fault →
    (pollerAfter directory extension calls).pollAt view =
      (⟨0, 0, 1⟩, [], pollerAfter directory extension calls)
  /-- Between snapshots, a later poll reports a later time. -/
  increasing : ∀ before first middle path early late, calls = before ++ .poll first :: middle →
    (∀ call ∈ middle, call.isSnapshot = false) →
    changeAt path early ∈ changesAfter directory extension before first →
    changeAt path late ∈ changesAfter directory extension calls view → early < late
  /-- What the call before saw just so is no news. -/
  quiet : ∀ before last, calls = before ++ [last] →
    (∀ path time, view.Shows directory watched path time →
      last.view.Shows directory watched path time) →
    changesAfter directory extension calls view = []
  /-- A file that was gone and comes back is no news if it is not newer than it was. -/
  returned : ∀ before first gone path time later, calls = before ++ first :: gone →
    first.view.Shows directory watched path time →
    (∀ call ∈ gone, ¬ call.view.Lists directory watched path) →
    view.Shows directory watched path later → later ≤ time →
    ∀ change ∈ changesAfter directory extension calls view, change.path ≠ path

variable {directory extension} {calls : List Call} {view : View}

theorem pollerAfter_eq (directory extension : String) (calls : List Call) :
    ∃ times, pollerAfter directory extension calls =
      ⟨directory, normalExtension extension, times⟩ :=
  Poller.exists_times_run _ calls

theorem mem_changesAfter_iff {change : Change} :
    change ∈ changesAfter directory extension calls view ↔
      ∃ path time, view.Shows directory (normalExtension extension) path time ∧
        (∀ seen ∈ seenTimes directory (normalExtension extension) calls path, seen < time) ∧
        change = changeAt path time := by
  have hremembers := Poller.remembers_run directory extension calls
  obtain ⟨times, hpoller⟩ := pollerAfter_eq directory extension calls
  change (pollerAfter directory extension calls).Remembers calls at hremembers
  rw [changesAfter, Poller.mem_changes_pollAt_iff]
  simp only [hremembers.isNewer_iff]
  rw [hpoller]

theorem changeAt_mem_changesAfter_iff {path : String} {time : Int} :
    changeAt path time ∈ changesAfter directory extension calls view ↔
      view.Shows directory (normalExtension extension) path time ∧
        ∀ seen ∈ seenTimes directory (normalExtension extension) calls path, seen < time := by
  rw [mem_changesAfter_iff]
  constructor
  · rintro ⟨other, modified, hshows, hnews, hchange⟩
    obtain ⟨-, rfl, rfl⟩ := Change.mk.inj hchange
    exact ⟨hshows, hnews⟩
  · rintro ⟨hshows, hnews⟩
    exact ⟨path, time, hshows, hnews, rfl⟩

/-- Whatever calls came before, a poll reports the news and nothing else. -/
theorem reportsNews_of_run (directory extension : String) (calls : List Call) (view : View) :
    ReportsNews directory extension (normalExtension extension) calls view := by
  obtain ⟨times, hpoller⟩ := pollerAfter_eq directory extension calls
  refine ⟨fun change => mem_changesAfter_iff, Poller.pairwise_changes_pollAt _ view, ?_, ?_, ?_, ?_,
    ?_, ?_, ?_⟩
  · rw [statsAfter, hpoller]
    exact Poller.seen_pollAt _ view
  · exact Poller.changed_pollAt _ view
  · intro names hnames
    rw [statsAfter, hpoller]
    exact Poller.errors_pollAt _ hnames
  · intro fault hfault
    rw [hpoller]
    exact Poller.pollAt_of_unlisted hfault
  · rintro before first middle path early late rfl hpolls hearly hlate
    obtain ⟨hshown, _⟩ := changeAt_mem_changesAfter_iff.1 hearly
    refine (changeAt_mem_changesAfter_iff.1 hlate).2 early
      ⟨before, .poll first, middle, rfl, hshown, fun call hcall hsnapshot => ?_⟩
    rw [hpolls call hcall] at hsnapshot
    cases hsnapshot
  · rintro before last rfl hsame
    rw [List.eq_nil_iff_forall_not_mem]
    intro change hchange
    obtain ⟨path, time, hshows, hnews, rfl⟩ := mem_changesAfter_iff.1 hchange
    exact lt_irrefl time (hnews time ⟨before, last, [], rfl, hsame path time hshows, by simp⟩)
  · rintro before first gone path time later rfl hshown hgone hshows hle change hchange rfl
    obtain ⟨path, modified, hmodified, hnews, rfl⟩ := mem_changesAfter_iff.1 hchange
    obtain rfl := Shows.unique hshows hmodified
    have hseen := hnews time ⟨before, first, gone, rfl, hshown,
      fun call hcall _ other hother => hgone call hcall hother.1⟩
    omega

end Reports

end LiveTables.Watch
