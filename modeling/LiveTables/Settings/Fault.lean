import LiveTables.Text.Escaped

/-!
# What can be wrong with settings
-/

namespace LiveTables.Settings

inductive Fault where
  /-- The text of a settings file is not readable, or settings cannot be written as one. -/
  | text (reason : String)
  | delimiter (c : Char)
  | extension
  | interval
  deriving DecidableEq, Repr

def Fault.message : Fault → String
  | text reason => reason
  | delimiter c => "delimiter must be a single ASCII character, got " ++ Text.shownChar c
  | extension => "extension must not be empty"
  | interval => "poll_interval_ms must be greater than zero"

end LiveTables.Settings
