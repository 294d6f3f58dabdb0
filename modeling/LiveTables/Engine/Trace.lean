/-!
# The trace of a connection

What the statements and loads of a connection leave behind for diagnosis, in the order they began.
-/

namespace LiveTables.Engine

/-- How a statement was given: as one of a batch, to be executed with values, or as a query. -/
inductive StatementKind where
  | batch
  | execution
  | query
  deriving DecidableEq, Repr

inductive Span where
  | statement (kind : StatementKind) (text : String)
  | load (table : String) (rows : Nat)
  deriving DecidableEq, Repr

end LiveTables.Engine
