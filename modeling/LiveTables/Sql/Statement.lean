/-!
# Statements

The statements that the store runs, as data.
-/

namespace LiveTables.Sql

inductive SqlType where
  | bigint
  | double
  | varchar
  | blob
  | boolean
  deriving DecidableEq, Repr

def SqlType.keyword : SqlType → String
  | bigint => "BIGINT"
  | double => "DOUBLE"
  | varchar => "VARCHAR"
  | blob => "BLOB"
  | boolean => "BOOLEAN"

structure ColumnDef where
  name : String
  type : SqlType
  required : Bool
  deriving DecidableEq, Repr

/-- A value in a statement's text: a literal, or a place for a bound value. -/
inductive Operand where
  | null
  | integer (n : Int)
  | text (value : String)
  | placeholder
  deriving DecidableEq, Repr

inductive Query where
  | allColumns (table : String)
  | columns (names : List String) (table : String)
  | rowCount (table : String)
  | operands (items : List (Operand × Option String))
  deriving DecidableEq, Repr

inductive Statement where
  | begin
  | commit
  | rollback
  | dropTable (lenient : Bool) (table : String)
  | createTable (table : String) (columns : List ColumnDef)
  | createView (view : String) (query : Query)
  | insert (table : String) (columns : Option (List String)) (rows : List (List Operand))
  | select (query : Query)
  deriving DecidableEq, Repr

def Query.names : Query → List String
  | allColumns table => [table]
  | columns names table => names ++ [table]
  | rowCount table => [table]
  | operands items => items.filterMap (·.2)

def Statement.names : Statement → List String
  | begin | commit | rollback => []
  | dropTable _ table => [table]
  | createTable table columns => table :: columns.map (·.name)
  | createView view query => view :: query.names
  | insert table columns _ => table :: columns.getD []
  | select query => query.names

/-- The name of the table or view that a statement makes, drops or fills. -/
def Statement.target? : Statement → Option String
  | dropTable _ table | createTable table _ | insert table _ _ => some table
  | createView view _ => some view
  | begin | commit | rollback | select _ => none

end LiveTables.Sql
