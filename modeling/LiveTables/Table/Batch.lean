import LiveTables.Engine.Load
import LiveTables.Table.Descriptor

/-!
# Batches of rows

The rows of a file, checked against a table and converted to its column types, ready to be loaded.
The first row that does not fit keeps the whole batch from being made.
-/

namespace LiveTables.Table

/-- Rows for one table, each with one value per column. -/
structure Batch where
  table : String
  columns : List String
  rows : List (List Value)
  deriving DecidableEq, Repr

/-- The values of fields in columns, as many as there are pairs of the two. -/
def coerceFields (table : String) (line : Nat) : List Column → List String →
    Except Failure (List Value)
  | column :: columns, field :: fields =>
    match column.type.coerce field with
    | none => .error (.typeCoercion table line column.name field column.type)
    | some value => (coerceFields table line columns fields).map (value :: ·)
  | _, _ => .ok []

namespace Descriptor

def typedRow (table : Descriptor) (row : Record.Row) : Except Failure (List Value) :=
  if row.fields.length != table.columns.length then
    .error (.schemaMismatch table.name row.line table.columns.length row.fields.length)
  else coerceFields table.name row.line table.columns row.fields

/-- The values of rows, up to the first that is missing or does not fit. -/
def typedRows (table : Descriptor) : List (Except Failure Record.Row) →
    Except Failure (List (List Value))
  | [] => .ok []
  | .error failure :: _ => .error failure
  | .ok row :: rest =>
    match table.typedRow row with
    | .error failure => .error failure
    | .ok values => (table.typedRows rest).map (values :: ·)

def batch (table : Descriptor) (rows : List (Except Failure Record.Row)) : Except Failure Batch :=
  (table.typedRows rows).map fun rows => ⟨table.name, table.columnNames, rows⟩

end Descriptor

namespace Batch

def rowCount (batch : Batch) : Nat := batch.rows.length

/-- The batch as one insert with a placeholder for every value. -/
def statement (batch : Batch) : String :=
  Sql.insertText batch.table batch.columns.length batch.rowCount

/-- The values of the placeholders, from left to right. -/
def params (batch : Batch) : List Value := batch.rows.flatten

def execute (batch : Batch) (conn : Engine.Connection) :
    Except Engine.EngineError Nat × Engine.Connection :=
  conn.load batch.table batch.columns batch.rows

end Batch

end LiveTables.Table
