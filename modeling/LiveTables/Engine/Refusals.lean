import LiveTables.Engine.Store

/-!
# What the engine refuses

The engine can refuse what it is asked to do for reasons that are not in the tables and views of the
store: a limit, a full disk, a relation of another schema that a drop removes in place of the one
that is meant. Such a reason can come up at any statement and at any row of a load.
-/

namespace LiveTables.Engine

open LiveTables.Sql LiveTables.Text

/-- What the engine refuses by itself. It looks at the statement or the rows and at what stands
under the name of their table. -/
structure Refusals where
  /-- Why a statement with its bound values is not run. -/
  statement : Option Relation → List Value → Statement → Option Rejection
  /-- After how many rows an append to the table of a name ends, and why. -/
  append : String → Option Relation → List (List Value) → Option (Nat × Rejection)

namespace Refusals

def never : Refusals where
  statement _ _ _ := none
  append _ _ _ := none

/-- Why a statement is not run on a store. -/
def ofStatement (refusals : Refusals) (store : Store) (values : List Value)
    (statement : Statement) : Option Rejection :=
  refusals.statement (statement.target?.bind fun name => store.find? (lower name)) values statement

end Refusals

end LiveTables.Engine
