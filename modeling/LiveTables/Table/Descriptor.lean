import LiveTables.Failure
import LiveTables.Sql.Render

/-!
# Table descriptors

The schema of a table and whether its rows are out of date. Columns are named after the table and
their position, and typed by the fields of a sample row.
-/

namespace LiveTables.Table

structure Column where
  name : String
  type : ColumnType
  deriving DecidableEq, Repr

structure Descriptor where
  name : String
  columns : List Column
  dirty : Bool
  deriving DecidableEq, Repr

namespace Descriptor

def columnName (table : String) (position : Nat) : String := table ++ "_" ++ toString position

/-- A descriptor with columns of the given types. No rows have been loaded, so it is dirty. -/
def ofTypes (name : String) (types : List ColumnType) : Descriptor :=
  { name
    columns := types.zipIdx.map fun (type, position) => ⟨columnName name position, type⟩
    dirty := true }

/-- A descriptor for rows like a sample row. -/
def infer (name : String) (sample : List String) : Except Failure Descriptor :=
  if sample.isEmpty then .error (.emptyRow name)
  else .ok (ofTypes name (sample.map ColumnType.infer))

def types (table : Descriptor) : List ColumnType := table.columns.map (·.type)

def columnNames (table : Descriptor) : List String := table.columns.map (·.name)

def markDirty (table : Descriptor) : Descriptor := { table with dirty := true }

def markClean (table : Descriptor) : Descriptor := { table with dirty := false }

/-- Whether two tables have columns of the same types. -/
def sameShape (table other : Descriptor) : Bool := table.types == other.types

def dropText (table : Descriptor) : String := Sql.dropText table.name

def createText (table : Descriptor) : String :=
  Sql.createText table.name (table.columns.map fun column => (column.name, column.type.sqlType))

end Descriptor

end LiveTables.Table
