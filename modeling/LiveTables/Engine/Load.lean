import LiveTables.Engine.Connection

/-!
# Loading rows

Rows are loaded by one insert with bound values, or, when there are more values than an insert
takes, by appending them to the table. Appended rows are whole rows: the columns that the caller
names play no part in where their values go. An append that fails leaves the rows in the table that
it has taken before.
-/

namespace LiveTables.Engine.Connection

open LiveTables.Sql

/-- How many values one insert takes. -/
def boundLimit : Nat := 999

def insertBound (conn : Connection) (table : String) (columns : List String)
    (rows : List (List Value)) : Except EngineError Nat × Connection :=
  let text := insertIntoText table columns rows.length
  let conn := conn.record (.statement .execution text)
  match readText text with
  | .ok [statement] => match conn.run rows.flatten statement with
    | .ok conn => (.ok rows.length, conn)
    | .error cause => (.error (.rejected cause), conn)
  | .ok _ => (.error (.rejected .unreadable), conn)
  | .error cause => (.error (.rejected cause), conn)

/-- Rows as a table holds them, up to the first that it cannot hold, and why it cannot. -/
def storeRows (columns : List ColumnDef) :
    List (List Value) → List (List Value) × Except Rejection Unit
  | [] => ([], .ok ())
  | values :: rest => match storeRow columns values with
    | .error cause => ([], .error cause)
    | .ok row =>
      let (rows, outcome) := storeRows columns rest
      (row :: rows, outcome)

/-- The rows of an append that are taken, and whether these are all. -/
def takeRows (refusal? : Option (Nat × Rejection)) (columns : List ColumnDef)
    (rows : List (List Value)) : List (List Value) × Except Rejection Unit :=
  match refusal? with
  | none => storeRows columns rows
  | some (count, cause) =>
    let (taken, outcome) := storeRows columns (rows.take count)
    (taken, outcome.bind fun _ => .error cause)

/-- Add whole rows at the end of a table, as far as they are taken. -/
def appendTo (refusals : Refusals) (store : Store) (table : String) (rows : List (List Value)) :
    Except Rejection Unit × Store :=
  match store.tableOf table with
  | .error cause => (.error cause, store)
  | .ok (columns, present) =>
    let refusal? := refusals.append table (store.find? (Text.lower table)) rows
    let (taken, outcome) := takeRows refusal? columns rows
    (outcome, store.addRows table columns present taken)

def append (conn : Connection) (table : String) (rows : List (List Value)) :
    Except EngineError Nat × Connection :=
  let conn := conn.record (.load table rows.length)
  let (outcome, store) := appendTo conn.refusals conn.contents table rows
  ((outcome.map fun _ => rows.length).mapError .rejected, conn.setContents store)

/-- The first row that has another number of values than there are columns, with its position. -/
def unevenRow? (width : Nat) (rows : List (List Value)) : Option (List Value × Nat) :=
  rows.zipIdx.find? fun row => row.1.length != width

/-- Load rows that have one value for each named column. -/
def load (conn : Connection) (table : String) (columns : List String)
    (rows : List (List Value)) : Except EngineError Nat × Connection :=
  if rows.isEmpty then (.ok 0, conn)
  else if columns.isEmpty then (.error (.noColumns table), conn)
  else match unevenRow? columns.length rows with
    | some (row, position) =>
      (.error (.unevenRow position table row.length columns.length), conn)
    | none =>
      if boundLimit < rows.length * columns.length then conn.append table rows
      else conn.insertBound table columns rows

end LiveTables.Engine.Connection
