import LiveTables.Text.Repaired
import LiveTables.Watch.Poller

/-!
# Names of directory entries

A directory names its entries by bytes. The extension of an entry is found among these bytes, and
only then read as text; the name that a change of the file carries is the text of all of them.
-/

namespace LiveTables.Watch

namespace EntryName

def dot : UInt8 := 0x2e

/-- A name split at its last dot. -/
def splitLastDot (name : List UInt8) : Option (List UInt8 × List UInt8) :=
  let (after, before) := name.reverse.span (· != dot)
  match before with
  | [] => none
  | _ :: before => some (before.reverse, after.reverse)

/-- What follows the last dot of a name, unless that dot starts the name. The name `..` has none. -/
def extension? (name : List UInt8) : Option (List UInt8) :=
  if name == [dot, dot] then none
  else match splitLastDot name with
    | some (stem, after) => if stem.isEmpty then none else some after
    | none => none

end EntryName

/-- Whether an entry of a directory has the watched extension. -/
def watches (extension : String) (name : List UInt8) : Bool :=
  match EntryName.extension? name with
  | some other => Text.equalIgnoringCase (Text.repairUtf8 other) (normalExtension extension)
  | none => false

end LiveTables.Watch
