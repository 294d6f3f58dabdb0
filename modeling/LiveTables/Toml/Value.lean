/-!
# Configuration values

The values of a configuration document. Numbers with a fraction and points in time are told apart
from other values, but nothing here depends on which they are.
-/

namespace LiveTables.Toml

/-- How a table came to be, which decides what may still be added to it. -/
inductive Origin where
  /-- By a header of its own, or as the document. -/
  | header
  /-- On the way to another table's header. -/
  | implied
  /-- By a dotted key. -/
  | dotted
  /-- As a value. -/
  | inline
  deriving DecidableEq, Repr

inductive Value where
  | string (text : String)
  | integer (n : Int)
  | float
  | boolean (b : Bool)
  | time
  | array (items : List Value)
  /-- An array of tables that each have a header, the last one first. -/
  | tables (tables : List (List (String × Value)))
  | table (origin : Origin) (entries : List (String × Value))
  deriving Repr, Inhabited

/-- The keys of a table with their values, in the order in which they were added. -/
abbrev Entries := List (String × Value)

namespace Entries

def set (key : String) (value : Value) : Entries → Entries
  | [] => [(key, value)]
  | entry :: rest => if entry.1 == key then (key, value) :: rest else entry :: set key value rest

/-- Add a value under a key that must be free. -/
def add? (entries : Entries) (key : String) (value : Value) : Option Entries :=
  match entries.lookup key with
  | some _ => none
  | none => some (entries ++ [(key, value)])

/-- Change the table that keys lead to, making tables on the way. Dotted keys lead only through
tables that have no header; headers lead also through the last of an array of tables. -/
def updateAt (dotted : Bool) (change : Origin → Entries → Option Entries) (origin : Origin)
    (entries : Entries) : List String → Option Entries
  | [] => change origin entries
  | key :: path =>
    let made : Origin := if dotted then .dotted else .implied
    match entries.lookup key with
    | none => do
      let inner ← updateAt dotted change made [] path
      some (entries ++ [(key, .table made inner)])
    | some (.table origin inner) =>
      if origin == .inline || (dotted && origin == .header) then none
      else do
        let inner ← updateAt dotted change origin inner path
        some (entries.set key (.table origin inner))
    | some (.tables (last :: others)) =>
      if dotted then none
      else do
        let last ← updateAt dotted change .header last path
        some (entries.set key (.tables (last :: others)))
    | some _ => none

/-- Add a value under a dotted key. The table that holds it must be made by dotted keys, if it is
not the table that the key starts from. -/
def addDotted? (entries : Entries) (path : List String) (key : String) (value : Value) :
    Option Entries :=
  updateAt true (fun origin inner =>
    if path.isEmpty || origin == .dotted then inner.add? key value else none) .header entries path

end Entries

end LiveTables.Toml
