import LiveTables.Engine.Error
import LiveTables.Engine.Refusals
import LiveTables.Engine.Trace
import LiveTables.Lock.StoreLock
import LiveTables.Sql.Fingerprint
import LiveTables.Sql.Reader
import LiveTables.Sql.Render

/-!
# Connections to a store

A connection runs statements on a store, at most one transaction at a time: while one is open its
changes are kept apart from the committed contents. Every operation gives its outcome and the
connection after it, in which the trace has grown.
-/

namespace LiveTables.Engine

open LiveTables.Sql

/-- Where a store on disk is: the lock that is held on it, and the identity of its file. -/
structure StoreFile where
  lock : Lock.StoreLock
  file : Nat

structure Connection where
  committed : Store
  working : Option Store
  trace : List Span
  file : Option StoreFile
  refusals : Refusals

namespace Connection

def inMemory : Connection := ⟨.empty, none, [], none, .never⟩

def isInMemory (conn : Connection) : Bool := conn.file.isNone

/-- What statements see. -/
def contents (conn : Connection) : Store := conn.working.getD conn.committed

def setContents (conn : Connection) (store : Store) : Connection :=
  match conn.working with
  | some _ => { conn with working := some store }
  | none => { conn with committed := store }

def record (conn : Connection) (span : Span) : Connection :=
  { conn with trace := conn.trace ++ [span] }

def begin (conn : Connection) : Except Rejection Connection :=
  match conn.working with
  | some _ => .error .transactionOpen
  | none => .ok { conn with working := some conn.committed }

def commit (conn : Connection) : Except Rejection Connection :=
  match conn.working with
  | some store => .ok { conn with committed := store, working := none }
  | none => .error .noTransaction

def rollback (conn : Connection) : Except Rejection Connection :=
  match conn.working with
  | some _ => .ok { conn with working := none }
  | none => .error .noTransaction

/-- The contents after a statement that is given values for its placeholders. -/
def change (store : Store) (values : List Value) : Statement → Except Rejection Store
  | .dropTable lenient table => store.dropTable lenient table
  | .createTable table columns => store.createTable table columns
  | .createView view query => store.createView values view query
  | .insert table listed rows => match bindRows values rows with
    | some (rows, []) => store.insertRows table listed rows
    | _ => .error .unboundValues
  | .select query => (store.answer values query).map fun _ => store
  | .begin | .commit | .rollback => .ok store

/-- The contents after a statement, unless the engine refuses it. -/
def attempt (refusals : Refusals) (store : Store) (values : List Value) (statement : Statement) :
    Except Rejection Store :=
  match refusals.ofStatement store values statement with
  | some cause => .error cause
  | none => change store values statement

def run (conn : Connection) (values : List Value) : Statement → Except Rejection Connection
  | .begin => conn.begin
  | .commit => conn.commit
  | .rollback => conn.rollback
  | statement => (attempt conn.refusals conn.contents values statement).map conn.setContents

/-- Run statements in order, up to the first that is rejected. -/
def runAll (conn : Connection) : List Statement → Except Rejection Unit × Connection
  | [] => (.ok (), conn)
  | statement :: rest => match conn.run [] statement with
    | .error cause => (.error cause, conn)
    | .ok conn => conn.runAll rest

/-- The statements of a text. A text with a null character or an empty name has none. -/
def readText (text : String) : Except Rejection (List Statement) :=
  if text.contains '\x00' then .error .unreadable
  else match readStatements text with
    | none => .error .unreadable
    | some statements =>
      if statements.all fun statement => statement.names.all (!·.isEmpty) then .ok statements
      else .error .unreadable

/-- Run the statements of a text, none of them if the text is not readable as a whole. -/
def runBatch (conn : Connection) (text : String) : Except EngineError Unit × Connection :=
  let conn := conn.record (.statement .batch text)
  match readText text with
  | .error cause => (.error (.rejected cause), conn)
  | .ok statements =>
    let (outcome, conn) := conn.runAll statements
    (outcome.mapError .rejected, conn)

/-- What a text that must be one query answers with `values` in its placeholders. -/
def answer (conn : Connection) (text : String) (values : List Value) : Except Rejection Answer :=
  match readText text with
  | .error cause => .error cause
  | .ok [.select query] => conn.contents.answer values query
  | .ok _ => .error .notAQuery

def query (conn : Connection) (text : String) (values : List Value) :
    Except EngineError Answer × Connection :=
  ((conn.answer text values).mapError .rejected, conn.record (.statement .query text))

/-- The value in a column of a row, as one of the kind asked for. -/
def readColumn (width : Nat) (row : List Value) (index : Nat) (kind : Kind) :
    Except EngineError Value :=
  match row[index]? with
  | none => .error (.noSuchColumn index width)
  | some value => match value.readAs? kind with
    | some value => .ok value
    | none => .error (.unexpectedKind kind value)

/-- The first value of the first row that a query answers. -/
def queryScalar (conn : Connection) (text : String) (kind : Kind) :
    Except EngineError Value × Connection :=
  match conn.query text [] with
  | (.error cause, conn) => (.error cause, conn)
  | (.ok answer, conn) => match answer.rows with
    | [] => (.error (.noRow (verb text)), conn)
    | row :: _ => (readColumn answer.columns.length row 0 kind, conn)

/-- Do something inside a transaction of its own: what it changes is kept if it succeeds and undone
if it fails. -/
def transaction {α : Type} (conn : Connection)
    (body : Connection → Except EngineError α × Connection) : Except EngineError α × Connection :=
  match conn.begin with
  | .error cause => (.error (.rejected cause), conn)
  | .ok conn => match body conn with
    | (.ok value, conn) => match conn.commit with
      | .ok conn => (.ok value, conn)
      | .error cause => (.error (.rejected cause), conn)
    | (.error cause, conn) => match conn.rollback with
      | .ok conn => (.error cause, conn)
      | .error rejection => (.error (.brokenTransaction cause rejection), conn)

def diagnostic (conn : Connection) : String :=
  "DbConnection \x7b in_memory: " ++ (if conn.isInMemory then "true" else "false") ++ " \x7d"

def backendName : String := "DuckDB"

end Connection

end LiveTables.Engine
