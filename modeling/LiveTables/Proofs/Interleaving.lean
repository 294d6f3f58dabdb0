import LiveTables.Proofs.CacheRuns
import LiveTables.Session

/-!
# Writers, monitor and cache side by side

While a session runs, files are written, the monitor examines them one at a time, and the cache
takes note of changes and loads tables. A load reads its file twice and puts the rows into the store
later, so files may be written and examined between its parts.
-/

namespace LiveTables

open LiveTables.Engine LiveTables.Files LiveTables.Sql LiveTables.Table LiveTables.Watch

namespace Cache

/-- How far the load of one table has come. -/
inductive Stage where
  | choosing
  /-- The first row of the file has given the columns of the table. -/
  | sampled (path : String) (table : Descriptor)
  | read (table : Descriptor) (batch : Batch)

/-- A refresh under way: the names that are left, how far the load for the first one has come, the
report so far, and the query that waits for the tables. -/
structure Refresh where
  names : List String
  stage : Stage
  report : Report
  query : Option String

namespace Refresh

def begin (names : List String) (query : Option String) : Refresh :=
  ⟨nameSet names, .choosing, ⟨[], []⟩, query⟩

def passed (refresh : Refresh) : Refresh :=
  { refresh with names := refresh.names.tail, stage := .choosing }

def failed (refresh : Refresh) (name : String) (failure : Failure) : Refresh :=
  { refresh.passed with
    report := ⟨refresh.report.reloaded, refresh.report.failed ++ [(name, failure)]⟩ }

def loaded (refresh : Refresh) (name : String) (count : Nat) : Refresh :=
  { refresh.passed with
    report := ⟨refresh.report.reloaded ++ [(name, count)], refresh.report.failed⟩ }

/-- The next part of a refresh, with the files as they are then. -/
def advance (refresh : Refresh) (tree : Tree) (cache : Cache) : Refresh × Cache :=
  match refresh.names, refresh.stage with
  | [], _ => (refresh, cache)
  | name :: _, .choosing => match cache.entry? name with
    | none => (refresh.passed, cache)
    | some entry =>
      if entry.table.dirty then
        match cache.freshTable tree entry with
        | .error failure => (refresh.failed name failure, cache)
        | .ok table => ({ refresh with stage := .sampled entry.path table }, cache)
      else (refresh.passed, cache)
  | name :: _, .sampled path table => match cache.readBatch tree path table with
    | .error failure => (refresh.failed name failure, cache)
    | .ok batch => ({ refresh with stage := .read table batch }, cache)
  | name :: _, .read table batch => match cache.install table batch with
    | (.error failure, cache) => (refresh.failed name failure, cache)
    | (.ok count, cache) => (refresh.loaded name count, cache)

/-- Once no names are left, the query is run unless a load has failed. -/
def finish (refresh : Refresh) (cache : Cache) : Cache :=
  match refresh.query, refresh.report.failed with
  | some query, [] => { cache with connection := (cache.connection.query query []).2 }
  | _, _ => cache

end Refresh

end Cache

/-- A session, the files, and the refresh that the cache is in the middle of. -/
structure System where
  tree : Tree
  session : Session
  refresh : Option Cache.Refresh

namespace System

def cache (system : System) : Cache := system.session.cache

def times (system : System) : NameMap Int := system.session.monitor.poller.times

def withCache (system : System) (cache : Cache) : System :=
  { system with session := { system.session with cache } }

/-- The monitor looks at one file and sends the change that it sees, if any. -/
def examine (system : System) (path : String) : System :=
  let examined := system.session.monitor.poller.examine (path, system.tree.modified? path)
  { system with
    session := { system.session with
      monitor := { system.session.monitor with poller := examined.2 }
      cache := (system.cache.send examined.1.toList).2 } }

inductive Step : System → System → Prop
  /-- A file is written or made, with a later time than it had. -/
  | write {system : System} {tree : Tree} (path : String) (content : List UInt8) (time : Int)
      (hwrite : system.tree.write path content (some time) = .ok tree)
      (hlater : ∀ earlier, system.tree.modified? path = .ok earlier → earlier < time) :
      Step system { system with tree }
  | examine (system : System) (path : String) : Step system (system.examine path)
  /-- The cache takes the first change out of its inbox. -/
  | note {system : System} {change : Change} {rest : List Change} (hidle : system.refresh = none)
      (hinbox : system.cache.inbox = some ⟨change :: rest, true⟩) :
      Step system (system.withCache ({ system.cache with
        inbox := some ⟨rest, true⟩ }.handleChange system.tree change).2)
  | drain {system : System} (hidle : system.refresh = none) :
      Step system (system.withCache (system.cache.drain system.tree).2)
  | plan {system : System} (query : String) (hidle : system.refresh = none) :
      Step system (system.withCache (system.cache.plan system.tree query).2)
  | tables {system : System} (hidle : system.refresh = none) :
      Step system (system.withCache (system.cache.tables system.tree).2)
  | describe {system : System} (name : String) (hidle : system.refresh = none) :
      Step system (system.withCache (system.cache.descriptor? system.tree name).2)
  /-- From now on the engine refuses something else. -/
  | engine {system : System} (refusals : Refusals) :
      Step system (system.withCache (system.cache.withRefusals refusals))
  | refresh {system : System} (names : List String) (hidle : system.refresh = none) :
      Step system { system with refresh := some (.begin names none) }
  /-- A query is to be run: its tables are planned and their refresh begins. -/
  | execute {system : System} (query : String) (hidle : system.refresh = none) :
      Step system { system.withCache (system.cache.plan system.tree query).2 with
        refresh := some (.begin (system.cache.plan system.tree query).1 (some query)) }
  | advance {system : System} {refresh : Cache.Refresh} (hbusy : system.refresh = some refresh) :
      Step system { system.withCache (refresh.advance system.tree system.cache).2 with
        refresh := some (refresh.advance system.tree system.cache).1 }
  | finish {system : System} {refresh : Cache.Refresh} (hbusy : system.refresh = some refresh)
      (hdone : refresh.names = []) :
      Step system { system.withCache (refresh.finish system.cache) with refresh := none }

inductive Reachable : System → Prop
  | start {settings : Settings} {delimiter : UInt8} {connection : Connection} {tree : Tree}
      {session : Session} {count : Nat}
      (hstart : (Session.onConnection settings delimiter connection).start tree =
        (.ok count, session)) : Reachable ⟨tree, session, none⟩
  | step {system after : System} : Reachable system → Step system after → Reachable after

/-! ### The operations of a session are runs of these steps -/

theorem Reachable.steps {system after : System} (h : system.Reachable)
    (hsteps : Relation.ReflTransGen Step system after) : after.Reachable := by
  induction hsteps with
  | refl => exact h
  | tail _ hstep ih => exact ih.step hstep

section Idle

variable {tree : Tree} {session : Session} {refresh refresh' : Cache.Refresh} {after : Cache}

theorem step_of_advance (h : refresh.advance tree session.cache = (refresh', after)) :
    Step ⟨tree, session, some refresh⟩ ⟨tree, { session with cache := after }, some refresh'⟩ := by
  have hadvance : refresh.advance tree (cache ⟨tree, session, some refresh⟩) =
      (refresh', after) := h
  simpa only [withCache, hadvance] using @Step.advance ⟨tree, session, some refresh⟩ refresh rfl

theorem step_of_finish (hdone : refresh.names = []) : Step ⟨tree, session, some refresh⟩
    ⟨tree, { session with cache := refresh.finish session.cache }, none⟩ :=
  @Step.finish ⟨tree, session, some refresh⟩ refresh rfl hdone

end Idle

section Runs

open Cache.Refresh

variable {tree : Tree} {name : String} {rest : List String} {report : Cache.Report}
  {query : Option String}

/-- The load of one dirty table takes up to three steps, after which its name is reported. -/
theorem steps_of_reload (session : Session) (hdirty : session.cache.isDirty name = true) :
    Relation.ReflTransGen Step ⟨tree, session, some ⟨name :: rest, .choosing, report, query⟩⟩
      ⟨tree, { session with cache := (session.cache.reload tree name).2 },
        some (match (session.cache.reload tree name).1 with
          | .ok count => loaded ⟨name :: rest, .choosing, report, query⟩ name count
          | .error failure => failed ⟨name :: rest, .choosing, report, query⟩ name failure)⟩ := by
  obtain ⟨entry, hfound, hmarked⟩ := Cache.isDirty_iff.1 hdirty
  have hentry : session.cache.entry? name = some entry := hfound
  unfold Cache.reload
  rw [hentry]
  dsimp only
  cases hfresh : session.cache.freshTable tree entry with
  | error failure =>
      refine Relation.ReflTransGen.single (step_of_advance ?_)
      simp [advance, hentry, hmarked, hfresh]
  | ok table =>
      have hsample := @step_of_advance tree session
        ⟨name :: rest, .choosing, report, query⟩
        ⟨name :: rest, .sampled entry.path table, report, query⟩ session.cache
        (by simp [advance, hentry, hmarked, hfresh])
      refine Relation.ReflTransGen.head hsample ?_
      dsimp only
      cases hread : session.cache.readBatch tree entry.path table with
      | error failure =>
          refine Relation.ReflTransGen.single (step_of_advance ?_)
          simp [advance, hread, failed, passed]
      | ok batch =>
          have hstep := @step_of_advance tree session
            ⟨name :: rest, .sampled entry.path table, report, query⟩
            ⟨name :: rest, .read table batch, report, query⟩ session.cache
            (by simp [advance, hread])
          refine Relation.ReflTransGen.head hstep ?_
          dsimp only
          refine Relation.ReflTransGen.single (step_of_advance ?_)
          cases hinstall : session.cache.install table batch with
          | mk outcome after => cases outcome <;> simp [advance, hinstall, loaded, failed, passed]

theorem steps_of_refreshEach (names : List String) (session : Session) (report : Cache.Report) :
    Relation.ReflTransGen Step ⟨tree, session, some ⟨names, .choosing, report, query⟩⟩
      ⟨tree, { session with cache := (session.cache.refreshEach tree names).2 },
        some ⟨[], .choosing,
          ⟨report.reloaded ++ (session.cache.refreshEach tree names).1.reloaded,
            report.failed ++ (session.cache.refreshEach tree names).1.failed⟩, query⟩⟩ := by
  induction names generalizing session report with
  | nil => simpa [Cache.refreshEach] using Relation.ReflTransGen.refl
  | cons name rest ih =>
      cases hdirty : session.cache.isDirty name with
      | false =>
          have hpass := @step_of_advance tree session
            ⟨name :: rest, .choosing, report, query⟩ ⟨rest, .choosing, report, query⟩ session.cache
            (by
              unfold Cache.isDirty at hdirty
              cases hentry : session.cache.entry? name with
              | none => simp [advance, hentry, passed]
              | some entry => simp_all [advance, passed])
          rw [Cache.refreshEach_cons_of_clean hdirty]
          exact Relation.ReflTransGen.head hpass (ih session report)
      | true =>
          have hload := @steps_of_reload tree name rest report query session hdirty
          cases hreload : session.cache.reload tree name with
          | mk outcome after =>
              rw [hreload] at hload
              cases outcome with
              | ok count =>
                  have hrest := ih { session with cache := after }
                    ⟨report.reloaded ++ [(name, count)], report.failed⟩
                  rw [Cache.refreshEach_cons_of_ok hdirty hreload]
                  refine hload.trans ?_
                  simpa [loaded, passed, Cache.Report.withReloaded] using hrest
              | error failure =>
                  have hrest := ih { session with cache := after }
                    ⟨report.reloaded, report.failed ++ [(name, failure)]⟩
                  rw [Cache.refreshEach_cons_of_error hdirty hreload]
                  refine hload.trans ?_
                  simpa [failed, passed, Cache.Report.withFailed] using hrest

end Runs

section Operations

variable {tree : Tree} {session : Session}

theorem Reachable.ensureFresh (h : Reachable ⟨tree, session, none⟩) (names : List String) :
    Reachable ⟨tree, { session with cache := (session.cache.ensureFresh tree names).2 }, none⟩ := by
  have hbegun := h.step (Step.refresh names rfl)
  have hdone := hbegun.steps (steps_of_refreshEach (nameSet names) session ⟨[], []⟩)
  exact hdone.step (step_of_finish rfl)

theorem execute_snd (cache : Cache) (query : String) {names : List String} {after : Cache}
    (hplan : cache.plan tree query = (names, after)) : (cache.execute tree query).2 =
      Cache.Refresh.finish ⟨[], .choosing, (after.ensureFresh tree names).1, some query⟩
        (after.ensureFresh tree names).2 := by
  rw [Cache.execute, hplan]
  dsimp only
  cases hreport : after.ensureFresh tree names with
  | mk report fresh =>
      cases hfailed : report.failed with
      | cons failed rest => simp [Cache.Refresh.finish, hfailed]
      | nil =>
          cases hanswer : fresh.connection.query query [] with
          | mk outcome connection =>
              cases outcome <;> simp [Cache.Refresh.finish, hfailed, hanswer]

theorem Reachable.execute (h : Reachable ⟨tree, session, none⟩) (query : String) :
    Reachable ⟨tree, (session.execute tree query).2, none⟩ := by
  cases hplan : session.cache.plan tree query with
  | mk names after =>
      have hbegun := h.step (Step.execute query rfl)
      simp only [cache, withCache, hplan] at hbegun
      have hdone := hbegun.steps (steps_of_refreshEach (nameSet names)
        { session with cache := after } ⟨[], []⟩)
      have hfinished := hdone.step (step_of_finish rfl)
      have hafter : (session.execute tree query).2 =
          { session with cache := (session.cache.execute tree query).2 } := rfl
      rw [hafter, execute_snd session.cache query hplan]
      exact hfinished

theorem send_append (cache : Cache) (first second : List Change) :
    ((cache.send first).2.send second).2 = (cache.send (first ++ second)).2 := by
  unfold Cache.send
  cases hinbox : cache.inbox with
  | none => simp [hinbox]
  | some inbox =>
      cases hconnected : inbox.connected with
      | true => simp [hconnected, Inbox.send]
      | false => simp [hconnected, hinbox]

theorem send_nil (cache : Cache) : (cache.send []).2 = cache := by
  unfold Cache.send
  cases hinbox : cache.inbox with
  | none => rfl
  | some inbox =>
      have hsame : inbox.send [] = inbox := by simp [Inbox.send]
      dsimp only
      split_ifs
      · rw [hsame, ← hinbox]
      · rfl

theorem Reachable.examineAll {refresh : Option Cache.Refresh} (paths : List String)
    {session : Session} (h : Reachable ⟨tree, session, refresh⟩) :
    let examined := session.monitor.poller.examineAll
      (paths.map fun path => (path, tree.modified? path))
    Reachable ⟨tree, { session with
      monitor := { session.monitor with poller := examined.2 }
      cache := (session.cache.send examined.1).2 }, refresh⟩ := by
  induction paths generalizing session with
  | nil => simpa [Poller.examineAll, send_nil] using h
  | cons path rest ih =>
      have hrest := ih (h.step (Step.examine ⟨tree, session, refresh⟩ path))
      simp only [cache, send_append] at hrest
      exact hrest

/-- A whole poll is an examination of each listed file. -/
theorem Reachable.poll {refresh : Option Cache.Refresh} (h : Reachable ⟨tree, session, refresh⟩) :
    Reachable ⟨tree, session.poll tree, refresh⟩ := by
  unfold Session.poll Monitor.poll
  split_ifs with hrunning
  · cases hlisting : session.monitor.poller.listing tree with
    | error fault => simpa [Poller.poll, send_nil] using h
    | ok files =>
        obtain ⟨paths, rfl⟩ : ∃ paths : List String,
            files = paths.map fun path => (path, tree.modified? path) := by
          simp only [Poller.listing, listing, bind, Except.bind] at hlisting
          split at hlisting
          · cases hlisting
          · exact ⟨_, (Except.ok.inj hlisting).symm⟩
        exact h.examineAll paths
  · simpa [send_nil] using h

end Operations

end System

end LiveTables
