/-!
# Matching queries with tables

How the text of a query is searched for the names of tables.
-/

namespace LiveTables.Settings

inductive Matching where
  /-- A name counts wherever its letters stand in the text. -/
  | substring
  /-- A name counts where it stands as a word outside literals and comments. -/
  | identifiers
  deriving DecidableEq, Repr

def Matching.name : Matching → String
  | substring => "substring"
  | identifiers => "identifiers"

def Matching.ofName? (name : String) : Option Matching :=
  if name == "substring" then some .substring
  else if name == "identifiers" then some .identifiers
  else none

end LiveTables.Settings
