import LiveTables.Cache.Basic
import LiveTables.Engine.Disk
import LiveTables.Settings.Basic
import LiveTables.Watch.Monitor

/-!
# Sessions

A session serves one directory: a cache over a store, and a monitor that sends changes of the
directory's files to the cache while it runs.
-/

namespace LiveTables

open LiveTables.Engine LiveTables.Files LiveTables.Watch

structure Session where
  settings : Settings
  cache : Cache
  monitor : Monitor

namespace Session

def onConnection (settings : Settings) (delimiter : UInt8) (connection : Connection) : Session :=
  { settings
    cache := .new connection ⟨delimiter, settings.hasHeaders⟩ settings.normalExtension
      settings.matching
    monitor := .new settings.directory settings.normalExtension }

/-- Open a session whose store lock is held by `holder`. Nothing is watched yet. -/
def «open» (host : Host) (settings : Settings) (holder : Lock.Holder) :
    Except Failure Session × Host :=
  match settings.validate with
  | .error fault => (.error (.settings fault), host)
  | .ok _ => match settings.delimiterByte with
    | .error fault => (.error (.settings fault), host)
    | .ok delimiter => match Connection.openAt host settings.databasePath holder with
      | (.error cause, host) => (.error (.engine cause), host)
      | (.ok connection, host) => (.ok (onConnection settings delimiter connection), host)

def close (session : Session) (host : Host) : Host :=
  Connection.close host session.cache.connection

/-- Take note of files in order. Gives the number of tables that were made. -/
def registerAll (cache : Cache) (tree : Tree) : List Change → Nat × Cache
  | [] => (0, cache)
  | change :: rest =>
    let (outcome, cache) := cache.handleChange tree change
    let (registered, cache) := registerAll cache tree rest
    match outcome with
    | .ok .created => (registered + 1, cache)
    | _ => (registered, cache)

/-- Start watching, and make tables for the files that are there. Gives the number of tables
made. -/
def start (session : Session) (tree : Tree) : Except Failure Nat × Session :=
  match session.monitor.start (session.monitor.poller.listing tree) with
  | (.error failure, monitor) => (.error failure, { session with monitor })
  | (.ok changes, monitor) =>
    let (registered, cache) := registerAll session.cache.attach tree changes
    (.ok registered, { session with cache, monitor })

/-- One poll of the directory, whose changes are sent to the cache. -/
def poll (session : Session) (tree : Tree) : Session :=
  let (changes, monitor) := session.monitor.poll (session.monitor.poller.listing tree)
  { session with monitor, cache := (session.cache.send changes).2 }

/-- Stop watching. Changes that were sent before stay in the inbox. -/
def stop (session : Session) : Session :=
  if session.monitor.state == .running then
    { session with monitor := session.monitor.stop, cache := session.cache.disconnect }
  else session

/-- What a query answers, and how many tables were loaded for it. -/
structure Outcome where
  answer : Answer
  refreshed : Nat

def execute (session : Session) (tree : Tree) (query : String) :
    Except Failure Outcome × Session :=
  let (outcome, cache) := session.cache.execute tree query
  (outcome.map fun result => ⟨result.1, result.2⟩, { session with cache })

def showTables (session : Session) (tree : Tree) : List (String × String) × Session :=
  let (tables, cache) := session.cache.tables tree
  (tables, { session with cache })

def describeTable (session : Session) (tree : Tree) (name : String) :
    Except Failure (List Table.Column) × Session :=
  match session.cache.descriptor? tree name with
  | (some table, cache) => (.ok table.columns, { session with cache })
  | (none, cache) => (.error (.unknownTable name), { session with cache })

def planRefresh (session : Session) (tree : Tree) (query : String) : List String × Session :=
  let (names, cache) := session.cache.plan tree query
  (names, { session with cache })

end Session

end LiveTables
