import LiveTables.Files.Path
import LiveTables.Text.Word

/-!
# Table names

The table of a file is named after the file: the watched extension is left off, characters that are
not word characters become underscores, and a name that would start with a digit gets `t_` in front.
-/

namespace LiveTables.Table

open LiveTables.Text

def stem (fileName extension : String) : String :=
  match Files.Path.splitLastDot fileName with
  | some (before, after) => if equalIgnoringCase after extension then before else fileName
  | none => fileName

/-- The table name for a file name, if anything is left of it. -/
def nameFor? (fileName extension : String) : Option String :=
  let name := (stem fileName extension).toList.map fun c => if isWordChar c then c else '_'
  match name with
  | [] => none
  | first :: _ =>
    some (String.ofList (if first.isDigit then 't' :: '_' :: name else name))

end LiveTables.Table
