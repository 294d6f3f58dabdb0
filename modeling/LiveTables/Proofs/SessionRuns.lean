import LiveTables.Proofs.LostUpdates
import LiveTables.Proofs.UnmarkedTables

/-!
# Runs of a session

A session is started, stopped and queried in any order, and while its monitor runs polls take place
between the calls, each of them a listing of the directory and then a look at one file after the
other. The first start that can list the directory is the only one that succeeds, and what the
monitor has reported when it is stopped is all that the tables are still told.
-/

namespace LiveTables

open LiveTables.Engine LiveTables.Files LiveTables.Sql LiveTables.Table LiveTables.Text
open LiveTables.Watch

/-! ### Starting -/

namespace Session

variable {session : Session} {tree : Tree}

theorem start_of_ne_idle (h : session.monitor.state ≠ .idle) : session.start tree =
    (.error (.state ("monitor already " ++ session.monitor.state.name)), session) := by
  simp [start, Monitor.start, h]

theorem start_of_fault (h : session.monitor.state = .idle) {fault : Fault}
    (hlisting : session.monitor.poller.listing tree = .error fault) : session.start tree =
      (.error (.sourceUnavailable session.monitor.poller.directory fault), session) := by
  simp [start, Monitor.start, h, hlisting, Poller.snapshot]

theorem start_of_listing (h : session.monitor.state = .idle) {files : List Listed}
    (hlisting : session.monitor.poller.listing tree = .ok files) : session.start tree =
      (.ok (registerAll session.cache.attach tree
          (session.monitor.poller.snapshotListed files).1).1,
        { session with
          monitor := ⟨(session.monitor.poller.snapshotListed files).2, .running⟩
          cache := session.cache.attach.handleChanges tree
            (session.monitor.poller.snapshotListed files).1 }) := by
  simp [start, Monitor.start, h, hlisting, Poller.snapshot, ← System.registerAll_snd]

/-- The changes that a start takes note of, if it succeeds. -/
def baseline? (session : Session) (tree : Tree) : Option (List Change) :=
  if session.monitor.state = .idle then
    (session.monitor.poller.listing tree).toOption.map fun files =>
      (session.monitor.poller.snapshotListed files).1
  else none

/-- A start changes nothing, or the monitor runs and the changes of the start have been noted. -/
theorem start_cases (session : Session) (tree : Tree) :
    (session.baseline? tree = none ∧ ∃ failure, session.start tree = (.error failure, session)) ∨
    (∃ changes poller, session.baseline? tree = some changes ∧ session.monitor.state = .idle ∧
      session.start tree = (.ok (registerAll session.cache.attach tree changes).1,
        { session with
          monitor := ⟨poller, .running⟩
          cache := session.cache.attach.handleChanges tree changes })) := by
  unfold baseline?
  split_ifs with hidle
  · cases hlisting : session.monitor.poller.listing tree with
    | error fault => exact Or.inl ⟨rfl, _, start_of_fault hidle hlisting⟩
    | ok files => exact Or.inr ⟨_, _, rfl, hidle, start_of_listing hidle hlisting⟩
  · exact Or.inl ⟨rfl, _, start_of_ne_idle hidle⟩

end Session

theorem Cache.length_registerAll (cache : Cache) (tree : Tree) (changes : List Change) :
    (Session.registerAll cache tree changes).2.entries.values.length =
      cache.entries.values.length + (Session.registerAll cache tree changes).1 := by
  induction changes generalizing cache with
  | nil => rfl
  | cons change rest ih =>
      have hrest := ih (cache.handleChange tree change).2
      rw [Session.registerAll]
      rcases handleChange_outcome cache tree change with ⟨outcome, spans, _, houtcome, _, hafter⟩ |
        ⟨name, entry, _, hentry, hafter⟩ | ⟨name, table, hname, hnew, hsampled, _, hafter⟩
      · rw [hafter] at hrest ⊢
        rcases houtcome with rfl | ⟨failure, rfl⟩ <;> exact hrest
      · rw [hafter] at hrest ⊢
        refine hrest.trans ?_
        rw [withMark_entries, NameMap.length_values_insert_of_some hentry]
      · obtain ⟨_, rfl, _⟩ := sampled_table (isIdentifier_of_nameFor? hname) hsampled
        rw [hafter] at hrest ⊢
        refine hrest.trans ?_
        rw [withEntry_entries, NameMap.length_values_insert_of_none hnew]
        dsimp only
        omega

/-! ### Calls and polls -/

/-- A session, and the listed files that a poll under way has still to look at. -/
structure Live where
  session : Session
  pending : List String

namespace Live

inductive Act where
  | start
  | stop
  | execute (query : String)
  | showTables
  /-- A poll begins with a listing of the directory. -/
  | list
  /-- The poll under way looks at the next file. -/
  | look

/-- The calls that look at the tables. -/
def Act.drains : Act → Bool
  | execute _ | showTables => true
  | start | stop | list | look => false

section Act

variable (live : Live) (tree : Tree)

def cache : Cache := live.session.cache

def state : MonitorState := live.session.monitor.state

/-- What the monitor sees at the next `count` files, and what it remembers then. -/
def seen (count : Nat) : List Change × Poller :=
  live.session.monitor.poller.examineAll
    ((live.pending.take count).map fun path => (path, tree.modified? path))

/-- The monitor looks at the next `count` files and sends the changes that it sees. -/
def lookAt (count : Nat) : Live where
  session := { live.session with
    monitor := { live.session.monitor with poller := (live.seen tree count).2 }
    cache := (live.cache.send (live.seen tree count).1).2 }
  pending := live.pending.drop count

/-- A call or a part of a poll, with the files as they are in a tree. A stop waits for the poll that
is under way. -/
def act : Act → Live
  | .start => { live with session := (live.session.start tree).2 }
  | .stop =>
    let polled := live.lookAt tree live.pending.length
    { polled with session := polled.session.stop }
  | .execute query => { live with session := (live.session.execute tree query).2 }
  | .showTables => { live with session := (live.session.showTables tree).2 }
  | .list => match live.state, live.pending, live.session.monitor.poller.listing tree with
    | .running, [], .ok files => { live with pending := files.map (·.1) }
    | _, _, _ => live
  | .look => live.lookAt tree 1

/-- The changes that the monitor reports. -/
def reported : Act → List Change
  | .stop => (live.seen tree live.pending.length).1
  | .look => (live.seen tree 1).1
  | .start | .execute _ | .showTables | .list => []

/-- The outcomes of starts. -/
def started : Act → List (Except Failure Nat)
  | .start => [(live.session.start tree).1]
  | .stop | .execute _ | .showTables | .list | .look => []

/-- What is done to the cache. -/
def operations : Act → List Cache.Operation
  | .start => match live.session.baseline? tree with
    | some changes => .attach :: changes.map .change
    | none => []
  | .stop => .send (live.reported tree .stop) :: if live.state = .running then [.disconnect] else []
  | .execute query => [.execute query]
  | .showTables => [.tables]
  | .list => []
  | .look => [.send (live.reported tree .look)]

def steps (act : Act) : List (Tree × Cache.Operation) :=
  (live.operations tree act).map fun operation => (tree, operation)

end Act

def run (live : Live) (acts : List (Tree × Act)) : Live :=
  acts.foldl (fun live step => live.act step.1 step.2) live

def reportedIn (live : Live) : List (Tree × Act) → List Change
  | [] => []
  | (tree, act) :: rest => live.reported tree act ++ (live.act tree act).reportedIn rest

def startedIn (live : Live) : List (Tree × Act) → List (Except Failure Nat)
  | [] => []
  | (tree, act) :: rest => live.started tree act ++ (live.act tree act).startedIn rest

def stepsIn (live : Live) : List (Tree × Act) → List (Tree × Cache.Operation)
  | [] => []
  | (tree, act) :: rest => live.steps tree act ++ (live.act tree act).stepsIn rest

section Polls

variable {live : Live} (tree : Tree)

theorem seen_of_no_pending (h : live.pending = []) (count : Nat) :
    live.seen tree count = ([], live.session.monitor.poller) := by
  simp [seen, h, Poller.examineAll]

theorem lookAt_of_no_pending (h : live.pending = []) (count : Nat) :
    live.lookAt tree count = live := by
  have hsent : (live.cache.send []).2 = live.cache := System.send_nil live.cache
  rw [lookAt, seen_of_no_pending tree h, hsent, h, List.drop_nil, ← h]
  rfl

theorem act_list_of_ne_running (hstate : live.state ≠ .running) : live.act tree .list = live := by
  cases h : live.state <;> simp_all [act]

theorem act_stop_of_ne_running (hstate : live.state ≠ .running) (hpending : live.pending = []) :
    live.act tree .stop = live := by
  have hmonitor : live.session.monitor.state ≠ .running := hstate
  simp [act, lookAt_of_no_pending tree hpending, Session.stop, hmonitor]

/-- A poll between two calls is a listing and a look at each file that is listed. -/
theorem poll_eq (hrunning : live.state = .running) (hpending : live.pending = []) :
    ((live.act tree .list).lookAt tree (live.act tree .list).pending.length).session =
      live.session.poll tree := by
  have hstate : live.session.monitor.state = .running := hrunning
  cases hlisting : live.session.monitor.poller.listing tree with
  | error fault =>
      have hlisted : live.act tree .list = live := by simp [act, hlisting]
      have hpolled : live.session.poll tree =
          { live.session with cache := (live.cache.send []).2 } := by
        simp only [Session.poll, Monitor.poll, hlisting, Poller.poll, hstate, cache,
          beq_self_eq_true, ↓reduceIte]
        rw [← hstate]
      rw [hlisted, lookAt_of_no_pending tree hpending, hpolled, System.send_nil]
      rfl
  | ok files =>
      obtain ⟨paths, rfl⟩ := System.listing_eq_ok hlisting
      have hlisted : live.act tree .list = { live with pending := paths } := by
        simp [act, hrunning, hpending, hlisting, Function.comp_def]
      rw [hlisted]
      simp [lookAt, seen, Session.poll, Monitor.poll, hstate, hlisting, Poller.poll, cache]

end Polls

/-! ### The operations of a run -/

theorem cache_act (live : Live) (tree : Tree) (act : Act) :
    (live.act tree act).cache = live.cache.run (live.steps tree act) := by
  cases act with
  | start =>
      rcases Session.start_cases live.session tree with
        ⟨hnone, failure, hstart⟩ | ⟨changes, poller, hsome, _, hstart⟩
      · simp [Live.act, steps, operations, hnone, hstart, Cache.run, cache]
      · simp only [Live.act, steps, operations, hsome, hstart]
        exact (Cache.run_changes _ tree changes).symm
  | stop =>
      have hstate : (live.lookAt tree live.pending.length).session.monitor.state = live.state := rfl
      simp only [Live.act, steps, operations, Session.stop, hstate]
      by_cases hrunning : live.state = .running
      · rw [if_pos hrunning, if_pos (by simp [hrunning])]
        rfl
      · rw [if_neg hrunning, if_neg (by simpa using hrunning)]
        rfl
  | execute query => rfl
  | showTables => rfl
  | list =>
      simp only [Live.act]
      split <;> rfl
  | look => rfl

theorem cache_run (live : Live) (acts : List (Tree × Act)) :
    (live.run acts).cache = live.cache.run (live.stepsIn acts) := by
  induction acts generalizing live with
  | nil => rfl
  | cons step rest ih =>
      obtain ⟨tree, act⟩ := step
      rw [stepsIn, Cache.run_append, ← cache_act]
      exact ih (live.act tree act)

/-! ### Before, while and after the monitor runs -/

/-- Nothing has been watched yet. -/
structure Idle (live : Live) : Prop where
  monitor : live.session.monitor =
    .new live.session.settings.directory live.session.settings.normalExtension
  pending : live.pending = []
  entries : live.cache.entries = .empty
  inbox : live.cache.inbox = none

structure Running (live : Live) : Prop where
  state : live.state = .running
  listening : live.cache.Listening

/-- The monitor is gone, and nothing can come into the inbox. -/
structure Stopped (live : Live) : Prop where
  state : live.state = .stopped
  pending : live.pending = []
  deaf : ¬ live.cache.Listening

section Phases

variable {live : Live} (tree : Tree)

theorem idle_onConnection (settings : Settings) (delimiter : UInt8) (connection : Connection) :
    Idle ⟨.onConnection settings delimiter connection, []⟩ := ⟨rfl, rfl, rfl, rfl⟩

theorem Idle.state (h : live.Idle) : live.state = .idle := by
  rw [Live.state, h.monitor]
  rfl

theorem Idle.state_ne_running (h : live.Idle) : live.state ≠ .running := by simp [h.state]

theorem Stopped.state_ne_running (h : live.Stopped) : live.state ≠ .running := by simp [h.state]

theorem Idle.wellFormed (h : live.Idle) : live.cache.WellFormed := by
  intro key entry hentry
  rw [h.entries] at hentry
  cases hentry

theorem Idle.waiting (h : live.Idle) : live.cache.waiting = [] := by
  rw [Cache.waiting, h.inbox]

theorem Idle.entries_apply (h : live.Idle) {operation : Cache.Operation}
    (hdrains : operation.drains = true) :
    (live.cache.apply tree operation).entries = .empty ∧
      (live.cache.apply tree operation).inbox = none := by
  constructor
  · refine NameMap.ext_find? fun key => ?_
    have hunmarked : Cache.Unmarked key live.cache (live.cache.apply tree operation) := by
      refine Cache.unmarked_apply h.wellFormed tree ?_ ?_
      · rintro change rfl
        cases hdrains
      · rw [Cache.noted, if_pos hdrains, h.waiting]
        exact List.forall_mem_nil _
    exact hunmarked.unmade (by rw [h.entries]; rfl)
  · rw [Cache.inbox_of_drains live.cache tree hdrains, h.inbox]
    rfl

/-- Until a start succeeds nothing is watched, and then the monitor runs. -/
theorem Idle.act (h : live.Idle) (act : Act) :
    (∀ outcome ∈ live.started tree act, outcome.isOk = false) ∧ (live.act tree act).Idle ∨
    (∃ count, live.started tree act = [.ok count]) ∧ (live.act tree act).Running := by
  cases act with
  | start =>
      rcases Session.start_cases live.session tree with
        ⟨_, failure, hstart⟩ | ⟨changes, poller, _, _, hstart⟩
      · have hsame : live.act tree .start = live := by simp [Live.act, hstart]
        refine Or.inl ⟨?_, hsame.symm ▸ h⟩
        simp [started, hstart, Except.isOk, Except.toBool]
      · refine Or.inr ⟨⟨_, by rw [started, hstart]⟩, ?_, ?_⟩
        · simp [Live.act, Live.state, hstart]
        · simp only [Live.act, cache, hstart]
          exact ⟨.new, Cache.inbox_handleChanges _ tree changes, rfl⟩
  | stop =>
      have hsame := act_stop_of_ne_running tree h.state_ne_running h.pending
      exact Or.inl ⟨List.forall_mem_nil _, hsame.symm ▸ h⟩
  | execute query =>
      obtain ⟨hentries, hinbox⟩ := @h.entries_apply _ tree (.execute query) rfl
      exact Or.inl ⟨List.forall_mem_nil _, h.monitor, h.pending, hentries, hinbox⟩
  | showTables =>
      obtain ⟨hentries, hinbox⟩ := @h.entries_apply _ tree .tables rfl
      exact Or.inl ⟨List.forall_mem_nil _, h.monitor, h.pending, hentries, hinbox⟩
  | list =>
      have hsame := act_list_of_ne_running tree h.state_ne_running
      exact Or.inl ⟨List.forall_mem_nil _, hsame.symm ▸ h⟩
  | look =>
      have hsame : live.act tree .look = live := lookAt_of_no_pending tree h.pending 1
      exact Or.inl ⟨List.forall_mem_nil _, hsame.symm ▸ h⟩

theorem start_of_ne_idle (h : live.state ≠ .idle) : live.session.start tree =
    (.error (.state ("monitor already " ++ live.state.name)), live.session) :=
  Session.start_of_ne_idle h

/-- The monitor has been started, whether it has been stopped since or not. -/
def Begun (live : Live) : Prop := live.Running ∨ live.Stopped

theorem Begun.state_ne_idle (h : live.Begun) : live.state ≠ .idle := by
  rcases h with h | h <;> simp [h.state]

theorem Begun.started_eq (h : live.Begun) (act : Act) :
    ∀ outcome ∈ live.started tree act, outcome.isOk = false := by
  cases act with
  | start => simp [started, start_of_ne_idle tree h.state_ne_idle, Except.isOk, Except.toBool]
  | _ => exact List.forall_mem_nil _

theorem Begun.act_start (h : live.Begun) : live.act tree .start = live := by
  simp [Live.act, start_of_ne_idle tree h.state_ne_idle]

theorem listening_lookAt (live : Live) (count : Nat) :
    (live.lookAt tree count).cache.Listening ↔ live.cache.Listening := by
  have hsend : (live.lookAt tree count).cache.Listening ↔ _ :=
    Cache.listening_apply live.cache tree (.send (live.seen tree count).1)
  simpa using hsend

theorem listening_drained (live : Live) {operation : Cache.Operation}
    (hdrains : operation.drains = true) :
    (live.cache.apply tree operation).Listening ↔ live.cache.Listening :=
  Cache.listening_of_emptied live.cache (Cache.inbox_of_drains live.cache tree hdrains)

theorem Running.act_stop (h : live.Running) : (live.act tree .stop).Stopped := by
  set polled := live.lookAt tree live.pending.length with hpolled
  have hrunning : polled.session.monitor.state = .running := h.state
  have hstopped : (live.act tree .stop).session =
      { polled.session with
        monitor := polled.session.monitor.stop
        cache := polled.cache.disconnect } := by
    simp [Live.act, Session.stop, ← hpolled, hrunning, cache]
  refine ⟨?_, List.drop_length, ?_⟩
  · rw [Live.state, hstopped]
    rfl
  · have hclosed : polled.cache.disconnect.Listening ↔ _ :=
      Cache.listening_apply polled.cache tree .disconnect
    rw [cache, hstopped]
    simpa using hclosed

theorem Running.act (h : live.Running) (act : Act) : (live.act tree act).Begun := by
  cases act with
  | start => exact (Begun.act_start tree (Or.inl h)).symm ▸ Or.inl h
  | stop => exact Or.inr (h.act_stop tree)
  | execute query =>
      exact Or.inl ⟨h.state, (@listening_drained tree live (.execute query) rfl).2 h.listening⟩
  | showTables =>
      exact Or.inl ⟨h.state, (@listening_drained tree live .tables rfl).2 h.listening⟩
  | list =>
      refine Or.inl ?_
      simp only [Live.act]
      split
      · exact ⟨h.state, h.listening⟩
      · exact h
  | look => exact Or.inl ⟨h.state, (listening_lookAt tree live 1).2 h.listening⟩

/-- A monitor that has been stopped reports nothing and is not started again. -/
theorem Stopped.act (h : live.Stopped) (act : Act) :
    live.reported tree act = [] ∧ (live.act tree act).Stopped := by
  cases act with
  | start => exact ⟨rfl, (Begun.act_start tree (Or.inr h)).symm ▸ h⟩
  | stop =>
      have hsame := act_stop_of_ne_running tree h.state_ne_running h.pending
      exact ⟨by rw [reported, seen_of_no_pending tree h.pending], hsame.symm ▸ h⟩
  | execute query =>
      exact ⟨rfl, h.state, h.pending,
        fun hlistening => h.deaf ((@listening_drained tree live (.execute query) rfl).1 hlistening)⟩
  | showTables =>
      exact ⟨rfl, h.state, h.pending,
        fun hlistening => h.deaf ((@listening_drained tree live .tables rfl).1 hlistening)⟩
  | list => exact ⟨rfl, (act_list_of_ne_running tree h.state_ne_running).symm ▸ h⟩
  | look =>
      have hsame : live.act tree .look = live := lookAt_of_no_pending tree h.pending 1
      exact ⟨by rw [reported, seen_of_no_pending tree h.pending], hsame.symm ▸ h⟩

theorem Begun.act (h : live.Begun) (act : Act) : (live.act tree act).Begun := by
  rcases h with h | h
  · exact h.act tree act
  · exact Or.inr (h.act tree act).2

end Phases

/-! ### Whole runs -/

section Runs

variable {live : Live}

theorem countP_isOk_eq_zero {outcomes : List (Except Failure Nat)}
    (h : ∀ outcome ∈ outcomes, outcome.isOk = false) : outcomes.countP (·.isOk) = 0 := by
  simpa [List.countP_eq_zero] using h

theorem Begun.run (h : live.Begun) (acts : List (Tree × Act)) :
    (∀ outcome ∈ live.startedIn acts, outcome.isOk = false) ∧ (live.run acts).Begun := by
  induction acts generalizing live with
  | nil => exact ⟨List.forall_mem_nil _, h⟩
  | cons step rest ih =>
      obtain ⟨tree, act⟩ := step
      obtain ⟨hrest, hafter⟩ := ih (h.act tree act)
      exact ⟨List.forall_mem_append.2 ⟨h.started_eq tree act, hrest⟩, hafter⟩

theorem Idle.run (h : live.Idle) (acts : List (Tree × Act)) :
    (∀ outcome ∈ live.startedIn acts, outcome.isOk = false) ∧ (live.run acts).Idle ∨
      (live.startedIn acts).countP (·.isOk) = 1 ∧ (live.run acts).Begun := by
  induction acts generalizing live with
  | nil => exact Or.inl ⟨List.forall_mem_nil _, h⟩
  | cons step rest ih =>
      obtain ⟨tree, act⟩ := step
      have hcount : (live.startedIn ((tree, act) :: rest)).countP (·.isOk) =
          (live.started tree act).countP (·.isOk) +
            ((live.act tree act).startedIn rest).countP (·.isOk) := List.countP_append
      -- the session stays idle up to the start that succeeds, and all starts behind it fail
      rcases h.act tree act with ⟨hfails, hidle⟩ | ⟨⟨count, hstarted⟩, hruns⟩
      · rcases ih hidle with ⟨hrest, hafter⟩ | ⟨hrest, hafter⟩
        · exact Or.inl ⟨List.forall_mem_append.2 ⟨hfails, hrest⟩, hafter⟩
        · exact Or.inr ⟨by rw [hcount, countP_isOk_eq_zero hfails, hrest], hafter⟩
      · obtain ⟨hrest, hafter⟩ := Begun.run (Or.inl hruns) rest
        exact Or.inr ⟨by rw [hcount, hstarted, countP_isOk_eq_zero hrest]; rfl, hafter⟩

theorem Stopped.run (h : live.Stopped) (acts : List (Tree × Act)) :
    live.reportedIn acts = [] ∧ (live.run acts).Stopped := by
  induction acts generalizing live with
  | nil => exact ⟨rfl, h⟩
  | cons step rest ih =>
      obtain ⟨tree, act⟩ := step
      obtain ⟨hsilent, hafter⟩ := h.act tree act
      obtain ⟨hrest, hend⟩ := ih hafter
      exact ⟨by rw [reportedIn, hsilent, hrest]; rfl, hend⟩

end Runs

/-! ### What becomes of the reported changes -/

/-- What the monitor reports reaches the inbox, and no inbox is put in place of one that is in
use. -/
structure Attentive (live : Live) : Prop where
  heard : live.pending = [] ∨ live.cache.Listening
  fresh : live.state = .idle → live.cache.waiting = []

section Reported

variable {live : Live} (tree : Tree)

theorem Idle.attentive (h : live.Idle) : live.Attentive := ⟨Or.inl h.pending, fun _ => h.waiting⟩

theorem Begun.attentive (h : live.Begun) : live.Attentive where
  heard := h.elim (fun hruns => Or.inr hruns.listening) fun hstopped => Or.inl hstopped.pending
  fresh hidle := absurd hidle h.state_ne_idle

theorem Attentive.taken_seen (h : live.Attentive) (count : Nat) :
    live.cache.taken (.send (live.seen tree count).1) = (live.seen tree count).1 := by
  rcases h.heard with hpending | hlistening
  · rw [seen_of_no_pending tree hpending, Cache.taken, ite_self]
  · exact if_pos ((Cache.fst_send_iff live.cache _).2 hlistening)

theorem Attentive.taken_act (h : live.Attentive) (act : Act) :
    live.cache.Undisturbed (live.steps tree act) ∧
      live.cache.takenIn (live.steps tree act) = live.reported tree act := by
  cases act with
  | start =>
      rcases Session.start_cases live.session tree with
        ⟨hnone, _⟩ | ⟨changes, poller, hsome, hidle, _⟩
      · simp [steps, operations, hnone, Cache.Undisturbed, Cache.takenIn, reported]
      · -- the changes of the start are noted at once and do not pass through the new inbox
        have hchanges : live.cache.attach.Undisturbed
            ((changes.map Cache.Operation.change).map fun operation => (tree, operation)) :=
          Cache.undisturbed_of_no_attach (by simp)
        simp only [steps, operations, hsome, List.map_cons]
        exact ⟨⟨fun _ => h.fresh hidle, hchanges⟩, Cache.takenIn_changes _ tree changes⟩
  | stop =>
      have htaken := h.taken_seen tree live.pending.length
      simp only [steps, operations, reported]
      split_ifs
      · refine ⟨Cache.undisturbed_of_no_attach (by simp), ?_⟩
        rw [List.map_cons, Cache.takenIn, htaken]
        exact List.append_nil _
      · refine ⟨Cache.undisturbed_of_no_attach (by simp), ?_⟩
        rw [List.map_cons, Cache.takenIn, htaken]
        exact List.append_nil _
  | execute query => exact ⟨Cache.undisturbed_of_no_attach (by simp [steps, operations]), rfl⟩
  | showTables => exact ⟨Cache.undisturbed_of_no_attach (by simp [steps, operations]), rfl⟩
  | list => exact ⟨trivial, rfl⟩
  | look =>
      refine ⟨Cache.undisturbed_of_no_attach (by simp [steps, operations]), ?_⟩
      exact (List.append_nil _).trans (h.taken_seen tree 1)

theorem Begun.steps_ne_change (h : live.Begun) (act : Act) :
    ∀ step ∈ live.steps tree act, ∀ change, step.2 ≠ .change change := by
  have hnone : live.session.baseline? tree = none := by
    have hstate : live.session.monitor.state ≠ .idle := h.state_ne_idle
    rw [Session.baseline?, if_neg hstate]
  cases act with
  | stop =>
      simp only [steps, operations]
      split_ifs <;> simp
  | _ => simp [steps, operations, hnone]

theorem Act.waiting_of_drains (live : Live) {act : Act} (hdrains : act.drains = true) :
    (live.act tree act).cache.waiting = [] := by
  cases act with
  | execute query =>
      exact Cache.waiting_of_emptied live.cache
        (@Cache.inbox_of_drains live.cache tree (.execute query) rfl)
  | showTables =>
      exact Cache.waiting_of_emptied live.cache
        (@Cache.inbox_of_drains live.cache tree .tables rfl)
  | _ => cases hdrains

end Reported

section Runs

variable {live : Live}

theorem taken_run (h : live.Idle ∨ live.Begun) (acts : List (Tree × Act)) :
    live.cache.Undisturbed (live.stepsIn acts) ∧
      live.cache.takenIn (live.stepsIn acts) = live.reportedIn acts := by
  induction acts generalizing live with
  | nil => exact ⟨trivial, rfl⟩
  | cons step rest ih =>
      obtain ⟨tree, act⟩ := step
      have hattentive : live.Attentive := h.elim Idle.attentive Begun.attentive
      have hafter : (live.act tree act).Idle ∨ (live.act tree act).Begun := by
        rcases h with hidle | hbegun
        · rcases hidle.act tree act with ⟨_, hidle⟩ | ⟨_, hruns⟩
          · exact Or.inl hidle
          · exact Or.inr (Or.inl hruns)
        · exact Or.inr (hbegun.act tree act)
      obtain ⟨hundisturbed, htaken⟩ := hattentive.taken_act tree act
      obtain ⟨hrest, htakenIn⟩ := ih hafter
      rw [stepsIn, Cache.undisturbed_append, Cache.takenIn_append, ← cache_act]
      exact ⟨⟨hundisturbed, hrest⟩, by rw [htaken, htakenIn, reportedIn]⟩

theorem reported_run (h : live.Idle ∨ live.Begun) (acts : List (Tree × Act)) :
    live.cache.waiting ++ live.reportedIn acts =
      live.cache.notedIn (live.stepsIn acts) ++ (live.run acts).cache.waiting := by
  obtain ⟨hundisturbed, htaken⟩ := taken_run h acts
  rw [← htaken, cache_run]
  exact Cache.taken_run hundisturbed

theorem Begun.stepsIn_ne_change (h : live.Begun) (acts : List (Tree × Act)) :
    ∀ step ∈ live.stepsIn acts, ∀ change, step.2 ≠ .change change := by
  induction acts generalizing live with
  | nil => exact List.forall_mem_nil _
  | cons step rest ih =>
      obtain ⟨tree, act⟩ := step
      exact List.forall_mem_append.2 ⟨h.steps_ne_change tree act, ih (h.act tree act)⟩

end Runs

/-! ### The contract -/

/-- What is promised of a session that has not been started. -/
structure BeforeStart (live : Live) : Prop where
  /-- The monitor is as it was made, and idle. -/
  idle : live.session.monitor =
    .new live.session.settings.directory live.session.settings.normalExtension
  stop : ∀ tree, live.act tree .stop = live
  /-- Where the directory cannot be listed, a start leaves everything as it is. -/
  fault : ∀ tree fault, live.session.monitor.poller.listing tree = .error fault →
    live.session.start tree =
      (.error (.sourceUnavailable live.session.settings.directory fault), live.session)
  /-- Where it can be listed, a start succeeds, and gives the number of tables that there are
  then. -/
  files : ∀ tree files, live.session.monitor.poller.listing tree = .ok files →
    ∃ session, live.session.start tree = (.ok session.cache.entries.values.length, session) ∧
      session.monitor.state = .running

/-- What is promised of a session whose monitor has been stopped, whatever is done with it later. -/
structure AfterStop (live : Live) (later : List (Tree × Act)) : Prop where
  silent : live.reportedIn later = []
  /-- What waited is noted or waits still, once and in order. -/
  conserved : live.cache.waiting =
    live.cache.notedIn (live.stepsIn later) ++ (live.run later).cache.waiting
  /-- All of it is noted by the next listing or query. -/
  prompt : ∀ tree act, act.drains = true →
    live.cache.notedIn (live.stepsIn (later ++ [(tree, act)])) = live.cache.waiting
  /-- No other change makes or marks a table. -/
  unmarked : ∀ key, (∀ change ∈ live.cache.waiting,
      Cache.keyOf? live.cache.extension change ≠ some key) →
    Cache.Unmarked key live.cache (live.run later).cache

/-- What is promised of a session after any calls, with parts of polls between them. -/
structure SessionContract (first : Live) (acts : List (Tree × Act)) : Prop where
  once : (first.startedIn acts).countP (·.isOk) ≤ 1
  before : (∀ outcome ∈ first.startedIn acts, outcome.isOk = false) → BeforeStart (first.run acts)
  /-- After a start that succeeded there is no other, whether the monitor was stopped or not. -/
  again : (∃ outcome ∈ first.startedIn acts, outcome.isOk = true) →
    ∀ tree, (first.run acts).session.start tree =
      (.error (.state ("monitor already " ++ (first.run acts).state.name)),
        (first.run acts).session)
  /-- What has been reported is noted or waits, once and in order. -/
  conserved : first.reportedIn acts =
    first.cache.notedIn (first.stepsIn acts) ++ (first.run acts).cache.waiting
  /-- Noting the changes that wait passes on each of them, whatever becomes of those before it. -/
  drains : ∀ tree, (first.run acts).cache.drain tree = ((first.run acts).cache.waiting.length,
    (first.run acts).cache.waiting.foldl (fun now change => (now.handleChange tree change).2)
      (first.run acts).cache.emptied)
  /-- Listings and queries do so before all else. -/
  noted : ∀ tree query, ∀ drained, drained = ((first.run acts).cache.drain tree).2 →
    drained.waiting = [] ∧
    (first.run acts).cache.execute tree query = drained.execute tree query ∧
    (first.run acts).cache.tables tree = drained.tables tree
  stopped : (first.run acts).state = .running → ∀ tree more later,
    AfterStop (((first.run acts).act tree .stop).run more) later

section Contract

variable {live : Live}

theorem Idle.beforeStart (h : live.Idle) : BeforeStart live where
  idle := h.monitor
  stop tree := act_stop_of_ne_running tree h.state_ne_running h.pending
  fault tree fault hlisting := by
    have hdirectory : live.session.monitor.poller.directory = live.session.settings.directory := by
      rw [h.monitor]
      rfl
    rw [Session.start_of_fault h.state hlisting, hdirectory]
  files tree files hlisting := by
    refine ⟨_, (Session.start_of_listing h.state hlisting).trans (Prod.ext ?_ rfl), rfl⟩
    have hempty : live.session.cache.attach.entries = .empty := h.entries
    have hlength := live.session.cache.attach.length_registerAll tree
      (live.session.monitor.poller.snapshotListed files).1
    rw [System.registerAll_snd, hempty] at hlength
    exact congrArg Except.ok (hlength.trans (Nat.zero_add _)).symm

theorem Stopped.afterStop (h : live.Stopped) (hcache : live.cache.WellFormed)
    (later : List (Tree × Act)) : AfterStop live later := by
  have hbegun : live.Begun := Or.inr h
  -- nothing more is reported, so what waits is all that can still be noted
  have hconserved (acts) : live.cache.waiting =
      live.cache.notedIn (live.stepsIn acts) ++ (live.run acts).cache.waiting := by
    have hreported := reported_run (Or.inr hbegun) acts
    rwa [(h.run acts).1, List.append_nil] at hreported
  refine ⟨(h.run later).1, hconserved later, ?_, ?_⟩
  · intro tree act hdrains
    have hafter : (live.run (later ++ [(tree, act)])).cache.waiting = [] := by
      rw [Live.run, List.foldl_append]
      exact Act.waiting_of_drains tree (live.run later) hdrains
    have hnoted := hconserved (later ++ [(tree, act)])
    rw [hafter, List.append_nil] at hnoted
    exact hnoted.symm
  · intro key hnone
    rw [cache_run]
    refine Cache.unmarked_run hcache (hbegun.stepsIn_ne_change later) fun change hchange => ?_
    exact hnone change (hconserved later ▸ List.mem_append_left _ hchange)

end Contract

/-- Whatever is done with a session, one start succeeds at most, and stopping ends the changes that
the tables are told of without losing one that was reported before. -/
theorem sessionContract (settings : Settings) (delimiter : UInt8) (connection : Connection)
    (acts : List (Tree × Act)) :
    SessionContract ⟨.onConnection settings delimiter connection, []⟩ acts := by
  set first : Live := ⟨.onConnection settings delimiter connection, []⟩
  have hidle : first.Idle := idle_onConnection settings delimiter connection
  have hreported := reported_run (Or.inl hidle) acts
  rw [hidle.waiting, List.nil_append] at hreported
  have hphase := hidle.run acts
  constructor
  case once =>
    rcases hphase with ⟨hfails, _⟩ | ⟨hcount, _⟩
    · exact (countP_isOk_eq_zero hfails).trans_le zero_le_one
    · exact hcount.le
  case before =>
    intro hfails
    rcases hphase with ⟨_, hafter⟩ | ⟨hcount, _⟩
    · exact hafter.beforeStart
    · rw [countP_isOk_eq_zero hfails] at hcount
      cases hcount
  case again =>
    rintro ⟨outcome, hstarted, hok⟩ tree
    rcases hphase with ⟨hfails, _⟩ | ⟨_, hbegun⟩
    · rw [hfails outcome hstarted] at hok
      cases hok
    · exact start_of_ne_idle tree hbegun.state_ne_idle
  case conserved => exact hreported
  case drains => exact Cache.drain_eq_foldl _
  case noted =>
    rintro tree query drained rfl
    have hagain := Cache.drain_drained (first.run acts).cache tree
    refine ⟨Cache.waiting_of_emptied _ (Cache.inbox_drain _ tree), ?_, ?_⟩
    · rw [Cache.execute, Cache.execute, Cache.plan, Cache.plan, hagain]
    · rw [Cache.tables, Cache.tables, hagain]
  case stopped =>
    intro hrunning tree more later
    rcases hphase with ⟨_, hafter⟩ | ⟨_, hruns | hstopped⟩
    · exact absurd hrunning hafter.state_ne_running
    · have hafter : ((first.run acts).act tree .stop).run more =
          first.run (acts ++ (tree, .stop) :: more) := by
        simp [Live.run]
      have hwellFormed : (((first.run acts).act tree .stop).run more).cache.WellFormed := by
        rw [hafter, cache_run]
        exact Cache.wellFormed_run hidle.wellFormed _
      exact ((hruns.act_stop tree).run more).2.afterStop hwellFormed later
    · exact absurd hrunning hstopped.state_ne_running

end Live

end LiveTables
