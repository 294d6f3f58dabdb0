import LiveTables.Cache.Reference
import LiveTables.Table.Batch
import LiveTables.Table.Name
import LiveTables.Watch.Inbox

/-!
# The table cache

A cache keeps, for each watched file, a table in the store and a mark that says whether the table's
rows are out of date. A change of a file makes its table or marks it; rows are loaded when a query
needs them. Every operation gives its outcome and the cache after it.
-/

namespace LiveTables

open LiveTables.Engine LiveTables.Files LiveTables.Record LiveTables.Table LiveTables.Watch

/-- A table and the file that its rows come from. -/
structure Cache.Entry where
  table : Descriptor
  path : String
  deriving DecidableEq, Repr

structure Cache where
  connection : Connection
  format : Format
  extension : String
  matching : Settings.Matching
  /-- By the lower-case form of the table's name. -/
  entries : NameMap Cache.Entry
  inbox : Option Inbox

namespace Cache

inductive ChangeOutcome where
  | created
  | markedDirty
  | skipped
  deriving DecidableEq, Repr

def new (connection : Connection) (format : Format) (extension : String)
    (matching : Settings.Matching) : Cache :=
  ⟨connection, format, extension, matching, .empty, none⟩

/-- The entry of a table, found without regard to case. -/
def entry? (cache : Cache) (name : String) : Option Entry := cache.entries.find? (Text.lower name)

def setEntry (cache : Cache) (name : String) (entry : Entry) : Cache :=
  { cache with entries := cache.entries.insert (Text.lower name) entry }

/-- The data rows of the file at a path, each with its own fault. -/
def sourceRows (format : Format) (tree : Tree) (path : String) :
    Except Failure (List (Except Failure Row)) :=
  match format.openRows tree path with
  | .error fault => .error (.sourceUnavailable path fault)
  | .ok rows => .ok (rows.map fun row => row.mapError .record)

/-- The first data row of the file at a path, if it has one. -/
def firstRow (format : Format) (tree : Tree) (path : String) : Except Failure (Option Row) :=
  match sourceRows format tree path with
  | .error failure => .error failure
  | .ok [] => .ok none
  | .ok (.error failure :: _) => .error failure
  | .ok (.ok row :: _) => .ok (some row)

/-- Put an empty table in the place of whatever table has its name. -/
def recreate (table : Descriptor) (conn : Connection) : Except EngineError Unit × Connection :=
  match conn.runBatch table.dropText with
  | (.error cause, conn) => (.error cause, conn)
  | (.ok _, conn) => conn.runBatch table.createText

/-- Make the table of a file that has none yet. -/
def register (cache : Cache) (tree : Tree) (name path : String) :
    Except Failure ChangeOutcome × Cache :=
  match firstRow cache.format tree path with
  | .error failure => (.error failure, cache)
  | .ok none => (.ok .skipped, cache)
  | .ok (some row) => match Descriptor.infer name row.fields with
    | .error failure => (.error failure, cache)
    | .ok table => match cache.connection.transaction (recreate table) with
      | (.error cause, connection) => (.error (.engine cause), { cache with connection })
      | (.ok _, connection) =>
        (.ok .created, { cache with connection }.setEntry name ⟨table, path⟩)

/-- Take note that a file is new or was written to: make its table, or mark the table that is
there. -/
def handleChange (cache : Cache) (tree : Tree) (change : Change) :
    Except Failure ChangeOutcome × Cache :=
  match nameFor? change.fileName cache.extension with
  | none => (.ok .skipped, cache)
  | some name => match cache.entry? name with
    | some entry => (.ok .markedDirty, cache.setEntry name ⟨entry.table.markDirty, change.path⟩)
    | none => cache.register tree name change.path

/-- Take note of changes in order. A change that fails leaves the tables as they were. -/
def handleChanges (cache : Cache) (tree : Tree) : List Change → Cache
  | [] => cache
  | change :: rest => (cache.handleChange tree change).2.handleChanges tree rest

/-- Listen to a new inbox in place of any other. -/
def attach (cache : Cache) : Cache := { cache with inbox := some .new }

/-- Send changes to the inbox. Gives whether it takes them. -/
def send (cache : Cache) (changes : List Change) : Bool × Cache :=
  match cache.inbox with
  | some inbox =>
    if inbox.connected then (true, { cache with inbox := some (inbox.send changes) })
    else (false, cache)
  | none => (false, cache)

/-- Let nothing more come into the inbox. -/
def disconnect (cache : Cache) : Cache := { cache with inbox := cache.inbox.map .disconnect }

/-- Take note of the changes that wait in the inbox. Gives their number. -/
def drain (cache : Cache) (tree : Tree) : Nat × Cache :=
  match cache.inbox with
  | none => (0, cache)
  | some inbox =>
    (inbox.queue.length,
      { cache with inbox := inbox.emptied? }.handleChanges tree inbox.queue)

/-- The dirty tables that a query refers to, in ascending order, among the tables as they are. -/
def referenced (cache : Cache) (query : String) : List String :=
  Sql.nameSet <| (cache.entries.values.filter fun entry =>
    entry.table.dirty && refersTo cache.matching query entry.table.name).map (·.table.name)

/-- The tables to load before a query: the dirty ones that it refers to, once the inbox is
drained. -/
def plan (cache : Cache) (tree : Tree) (query : String) : List String × Cache :=
  let cache := (cache.drain tree).2
  (cache.referenced query, cache)

/-- The table that rows of the file at a path will go into: like the first row, or with the types as
they were when there is none. -/
def freshTable (cache : Cache) (tree : Tree) (entry : Entry) : Except Failure Descriptor :=
  match firstRow cache.format tree entry.path with
  | .error failure => .error failure
  | .ok (some row) => Descriptor.infer entry.table.name row.fields
  | .ok none => .ok (Descriptor.ofTypes entry.table.name entry.table.types)

/-- The rows of the file at a path as a batch for a table. -/
def readBatch (cache : Cache) (tree : Tree) (path : String) (table : Descriptor) :
    Except Failure Batch :=
  match sourceRows cache.format tree path with
  | .error failure => .error failure
  | .ok rows => table.batch rows

def fill (table : Descriptor) (batch : Batch) (conn : Connection) :
    Except EngineError Nat × Connection :=
  match recreate table conn with
  | (.error cause, conn) => (.error cause, conn)
  | (.ok _, conn) => batch.execute conn

/-- Put a loaded table in the place of the one that is there. -/
def install (cache : Cache) (table : Descriptor) (batch : Batch) : Except Failure Nat × Cache :=
  match cache.connection.transaction (fill table batch) with
  | (.error cause, connection) => (.error (.engine cause), { cache with connection })
  | (.ok count, connection) =>
    let cache := { cache with connection }
    match cache.entry? table.name with
    | some entry => (.ok count, cache.setEntry table.name { entry with table := table.markClean })
    | none => (.ok count, cache)

/-- Load the rows of a table from its file. Gives their number. -/
def reload (cache : Cache) (tree : Tree) (name : String) : Except Failure Nat × Cache :=
  match cache.entry? name with
  | none => (.error (.unknownTable name), cache)
  | some entry => match cache.freshTable tree entry with
    | .error failure => (.error failure, cache)
    | .ok table => match cache.readBatch tree entry.path table with
      | .error failure => (.error failure, cache)
      | .ok batch => cache.install table batch

/-- What became of the tables that were to be loaded, in order. -/
structure Report where
  reloaded : List (String × Nat)
  failed : List (String × Failure)

def isDirty (cache : Cache) (name : String) : Bool :=
  ((cache.entry? name).map (·.table.dirty)).getD false

/-- Load the tables of names in order, where they are known and dirty. -/
def refreshEach (cache : Cache) (tree : Tree) : List String → Report × Cache
  | [] => (⟨[], []⟩, cache)
  | name :: rest =>
    if cache.isDirty name then
      match cache.reload tree name with
      | (.ok count, cache) =>
        let (report, cache) := cache.refreshEach tree rest
        ({ report with reloaded := (name, count) :: report.reloaded }, cache)
      | (.error failure, cache) =>
        let (report, cache) := cache.refreshEach tree rest
        ({ report with failed := (name, failure) :: report.failed }, cache)
    else cache.refreshEach tree rest

/-- Load the dirty tables among a set of names, in ascending order. -/
def ensureFresh (cache : Cache) (tree : Tree) (names : List String) : Report × Cache :=
  cache.refreshEach tree (Sql.nameSet names)

/-- Run a query on fresh tables. Gives its answer and how many tables were loaded for it. -/
def execute (cache : Cache) (tree : Tree) (query : String) :
    Except Failure (Answer × Nat) × Cache :=
  let (names, cache) := cache.plan tree query
  let (report, cache) := cache.ensureFresh tree names
  match report.failed with
  | (table, failure) :: _ => (.error (.refresh table failure), cache)
  | [] => match cache.connection.query query [] with
    | (.error cause, connection) => (.error (.engine cause), { cache with connection })
    | (.ok answer, connection) =>
      (.ok (answer, report.reloaded.length), { cache with connection })

/-- The tables and their files, once the inbox is drained. -/
def tables (cache : Cache) (tree : Tree) : List (String × String) × Cache :=
  let cache := (cache.drain tree).2
  (cache.entries.values.map fun entry => (entry.table.name, entry.path), cache)

/-- The table of a name, once the inbox is drained. -/
def descriptor? (cache : Cache) (tree : Tree) (name : String) : Option Descriptor × Cache :=
  let cache := (cache.drain tree).2
  ((cache.entry? name).map (·.table), cache)

def sourcePath? (cache : Cache) (name : String) : Option String :=
  (cache.entry? name).map (·.path)

end Cache

end LiveTables
