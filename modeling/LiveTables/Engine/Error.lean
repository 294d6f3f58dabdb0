import LiveTables.Engine.Store
import LiveTables.Lock.Fault

/-!
# Engine errors

Everything that can go wrong between a caller and the store, with its wording.
-/

namespace LiveTables.Engine

inductive EngineError where
  | noDirectory (path : String) (fault : Files.Fault)
  | notLocked (cause : Lock.Fault)
  | failed (reason : String)
  | noRow (verb : String)
  | brokenTransaction (cause : EngineError) (rollback : Rejection)
  | noSuchColumn (index width : Nat)
  | unexpectedKind (expected : Kind) (found : Value)
  | noColumns (table : String)
  | unevenRow (row : Nat) (table : String) (found expected : Nat)
  | rejected (cause : Rejection)
  deriving Repr

/-- The kinds of error that callers tell apart. -/
inductive ErrorKind where
  | database
  | locked
  | query
  | transaction
  | typeConversion
  | invalidInput
  | store
  deriving DecidableEq, Repr

namespace EngineError

def kind : EngineError → ErrorKind
  | noDirectory .. => .database
  | notLocked (.held ..) => .locked
  | notLocked (.unusable ..) => .database
  | failed _ => .query
  | noRow _ => .query
  | brokenTransaction .. => .transaction
  | noSuchColumn .. => .typeConversion
  | unexpectedKind .. => .typeConversion
  | noColumns _ => .invalidInput
  | unevenRow .. => .invalidInput
  | rejected _ => .store

def kindText : ErrorKind → String
  | .database => "Database error: "
  | .locked => "Database is locked by another process: "
  | .query => "Query error: "
  | .transaction => "Transaction error: "
  | .typeConversion => "Type conversion error: "
  | .invalidInput => "Invalid input: "
  | .store => "DuckDB error: "

def message (error : EngineError) : String :=
  kindText error.kind ++ match error with
    | noDirectory path fault => "Cannot create " ++ path ++ ": " ++ fault.message
    | notLocked cause => cause.message
    | failed reason => reason
    | noRow verb => "expected a row from: " ++ verb
    | brokenTransaction cause rollback =>
      cause.message ++ "; rollback also failed: " ++ kindText .store ++ rollback.message
    | noSuchColumn index width =>
      "column " ++ toString index ++ " out of range (" ++ toString width ++ " columns)"
    | unexpectedKind expected found =>
      "expected " ++ expected.name ++ ", found " ++ found.diagnostic
    | noColumns table => "no columns given for " ++ table
    | unevenRow row table found expected =>
      "row " ++ toString row ++ " of " ++ table ++ " has " ++ toString found ++ " values for " ++
        toString expected ++ " columns"
    | rejected cause => cause.message

end EngineError

end LiveTables.Engine
