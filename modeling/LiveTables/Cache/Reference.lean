import LiveTables.Settings.Matching
import LiveTables.Sql.Identifier

/-!
# Which tables a query refers to
-/

namespace LiveTables.Cache

open LiveTables.Settings LiveTables.Sql LiveTables.Text

def containsText (needle : List Char) : List Char → Bool
  | [] => needle.isEmpty
  | c :: rest => needle.isPrefixOf (c :: rest) || containsText needle rest

/-- Whether a query refers to the table of a name, without regard to case. -/
def refersTo (matching : Matching) (query name : String) : Bool :=
  match matching with
  | .substring => containsText (lower name).toList (lower query).toList
  | .identifiers => (identifierWords query).contains (lower name)

end LiveTables.Cache
