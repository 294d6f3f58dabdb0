import LiveTables.Engine.Error
import LiveTables.Field
import LiveTables.Record.Source
import LiveTables.Settings.Fault

/-!
# Failures

Everything that can go wrong between a directory of files and the answer to a query, with its
wording.
-/

namespace LiveTables

inductive Failure where
  | file (fault : Files.Fault)
  | engine (cause : Engine.EngineError)
  | record (fault : Record.Fault)
  | settings (fault : Settings.Fault)
  | state (reason : String)
  | sourceUnavailable (path : String) (fault : Files.Fault)
  | schemaMismatch (table : String) (line expected found : Nat)
  | typeCoercion (table : String) (line : Nat) (column value : String) (expected : ColumnType)
  | emptyRow (table : String)
  | unknownTable (name : String)
  | refresh (table : String) (source : Failure)
  deriving Repr

namespace Failure

def message : Failure → String
  | file fault => "IO error: " ++ fault.message
  | engine cause => "Engine error: " ++ cause.message
  | record fault => "CSV error: " ++ fault.message
  | settings fault => "Config error: " ++ fault.message
  | state reason => "Invalid state: " ++ reason
  | sourceUnavailable path fault => "Source unavailable: " ++ path ++ ": " ++ fault.message
  | schemaMismatch table line expected found =>
    "Table '" ++ table ++ "' line " ++ toString line ++ ": expected " ++ toString expected ++
      " fields, found " ++ toString found
  | typeCoercion table line column value expected =>
    "Table '" ++ table ++ "' line " ++ toString line ++ ": value '" ++ value ++ "' in column " ++
      column ++ " is not " ++ expected.name
  | emptyRow table => "Cannot infer a schema for '" ++ table ++ "' from an empty row"
  | unknownTable name => "Table not found: " ++ name
  | refresh table source => "Refresh of table '" ++ table ++ "' failed: " ++ source.message

/-- Whether a row of a file does not fit its table. -/
def isRowFailure : Failure → Bool
  | schemaMismatch .. => true
  | typeCoercion .. => true
  | _ => false

end Failure

end LiveTables
