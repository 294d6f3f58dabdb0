import LiveTables.Engine.Load

/-!
# Tasks

What is done inside a transaction, as data: tables are made and dropped, statements are run and rows
are loaded, in order, up to the first task that fails.
-/

namespace LiveTables.Engine

open LiveTables.Sql

inductive Task where
  /-- Make a table, from the names of its columns and their types as written. -/
  | create (table : String) (columns : List (String × String))
  | drop (table : String)
  | batch (text : String)
  | load (table : String) (columns : List String) (rows : List (List Value))
  | fail (reason : String)
  deriving DecidableEq, Repr

/-- The statement that makes a table, with the types of its columns as written. -/
def createAsWritten (table : String) (columns : List (String × String)) : String :=
  "CREATE TABLE " ++ quote table ++ " (" ++
    ", ".intercalate (columns.map fun column => quote column.1 ++ " " ++ column.2) ++ ")"

namespace Connection

/-- Run a text as a task, which loads no rows. -/
def performText (conn : Connection) (text : String) :
    Except EngineError (Option Nat) × Connection :=
  let (outcome, conn) := conn.runBatch text
  (outcome.map fun _ => none, conn)

/-- Do one task. Gives the number of rows when the task is to load some. -/
def perform (conn : Connection) : Task → Except EngineError (Option Nat) × Connection
  | .create table columns => conn.performText (createAsWritten table columns)
  | .drop table => conn.performText ("DROP TABLE " ++ quote table)
  | .batch text => conn.performText text
  | .load table columns rows =>
    let (outcome, conn) := conn.load table columns rows
    (outcome.map some, conn)
  | .fail reason => (.error (.failed reason), conn)

/-- Do tasks in order, up to the first that fails. -/
def performAll (conn : Connection) : List Task → Except EngineError (List (Option Nat)) × Connection
  | [] => (.ok [], conn)
  | task :: rest => match conn.perform task with
    | (.error cause, conn) => (.error cause, conn)
    | (.ok result, conn) =>
      let (results, conn) := conn.performAll rest
      (results.map (result :: ·), conn)

end Connection

end LiveTables.Engine
