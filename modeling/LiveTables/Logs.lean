import LiveTables.Files.Path
import LiveTables.Text.Word

/-!
# Where logs go

The home directory of the program and the names of its log files.
-/

namespace LiveTables.Logs

open LiveTables.Files LiveTables.Text

/-- The program's home: the place that is asked for, unless it is empty, or a hidden directory in
the user's home. -/
def home (requested userHome : Option String) : String :=
  match requested, userHome with
  | some "", some userHome => Path.join userHome ".csvdb"
  | some "", none => ".csvdb"
  | some place, _ => place
  | none, some userHome => Path.join userHome ".csvdb"
  | none, none => ".csvdb"

def directory (home : String) : String := Path.join home "logs"

/-- A program's name as a part of a file name. -/
def fileStem (program : String) : String :=
  let name := program.toList.map fun c => if isWordChar c || c == '-' then c else '_'
  if name.isEmpty then "csvdb" else String.ofList name

def fileName (program date : String) : String := fileStem program ++ "." ++ date ++ ".log"

end LiveTables.Logs
