import LiveTables.Settings.Fault
import LiveTables.Settings.Matching
import LiveTables.Watch.Poller

/-!
# Settings

What directory is watched for which files, how they are read, and where the store is.
-/

namespace LiveTables

structure Settings where
  directory : String
  extension : String
  delimiter : Char
  hasHeaders : Bool
  /-- Milliseconds between two polls. -/
  pollInterval : Nat
  /-- The file of the store; without one it is in memory. -/
  databasePath : Option String
  matching : Settings.Matching
  deriving DecidableEq, Repr

namespace Settings

/-- The settings where nothing else is said. -/
def standard : Settings :=
  { directory := "data"
    extension := "csv"
    delimiter := ','
    hasHeaders := true
    pollInterval := 1000
    databasePath := none
    matching := .substring }

def delimiterByte (settings : Settings) : Except Fault UInt8 :=
  if settings.delimiter.toNat < 0x80 then .ok settings.delimiter.toNat.toUInt8
  else .error (.delimiter settings.delimiter)

/-- The extension without dots in front and with ASCII letters in lower case. -/
def normalExtension (settings : Settings) : String := Watch.normalExtension settings.extension

/-- The first fault of the settings, if they have one. -/
def validate (settings : Settings) : Except Fault Unit :=
  match settings.delimiterByte with
  | .error fault => .error fault
  | .ok _ =>
    if settings.normalExtension.isEmpty then .error .extension
    else if settings.pollInterval == 0 then .error .interval
    else .ok ()

end Settings

end LiveTables
