import LiveTables.Failure
import LiveTables.Settings.Basic
import LiveTables.Toml.Document

/-!
# Settings files

Settings as a configuration document. A key that a document does not give has its standard value,
and keys that mean nothing here are passed over.
-/

namespace LiveTables.Settings

open LiveTables.Toml

/-- Why a document gives no settings. -/
def notSettings : Fault := .text "the text gives no settings"

def stringOf? : Toml.Value → Option String
  | .string text => some text
  | _ => none

def charOf? : Toml.Value → Option Char
  | .string text => match text.toList with
    | [c] => some c
    | _ => none
  | _ => none

def booleanOf? : Toml.Value → Option Bool
  | .boolean b => some b
  | _ => none

def naturalOf? : Toml.Value → Option Nat
  | .integer (.ofNat n) => some n
  | _ => none

def isEmptyValue : Toml.Value → Bool
  | .array items => items.isEmpty
  | .table _ entries => entries.isEmpty
  | _ => false

/-- A way of matching: its name, or a table with nothing but its name. -/
def matchingOf? : Toml.Value → Option Matching
  | .string name => Matching.ofName? name
  | .table _ [(name, value)] => if isEmptyValue value then Matching.ofName? name else none
  | _ => none

/-- The value under a key, read in some way, or a standard value when there is none. -/
def field {α : Type} (entries : Entries) (key : String) (standard : α)
    (read? : Toml.Value → Option α) :
    Option α :=
  match entries.lookup key with
  | none => some standard
  | some value => read? value

def ofEntries? (entries : Entries) : Option Settings := do
  some {
    directory := ← field entries "directory" standard.directory stringOf?
    extension := ← field entries "extension" standard.extension stringOf?
    delimiter := ← field entries "delimiter" standard.delimiter charOf?
    hasHeaders := ← field entries "has_headers" standard.hasHeaders booleanOf?
    pollInterval := ← field entries "poll_interval_ms" standard.pollInterval naturalOf?
    databasePath := ← field entries "database_path" none fun value => (stringOf? value).map some
    matching := ← field entries "refresh_matching" standard.matching matchingOf? }

/-- The settings of a document, not yet validated. -/
def ofText (text : String) : Except Fault Settings :=
  match (readDocument text.toList).bind ofEntries? with
  | some settings => .ok settings
  | none => .error notSettings

def textLine (key : String) (value : String) : String :=
  key ++ " = " ++ String.ofList (quoteText value.toList) ++ "\n"

/-- Settings as a document. The poll interval must be an integer of 64 bits with a sign. -/
def toText (settings : Settings) : Except Fault String :=
  if !Number.isWord settings.pollInterval then .error (.text "out-of-range value for u64 type")
  else .ok <|
    textLine "directory" settings.directory ++
    textLine "extension" settings.extension ++
    textLine "delimiter" (String.ofList [settings.delimiter]) ++
    "has_headers = " ++ (if settings.hasHeaders then "true" else "false") ++ "\n" ++
    "poll_interval_ms = " ++ toString settings.pollInterval ++ "\n" ++
    (match settings.databasePath with
      | some path => textLine "database_path" path
      | none => "") ++
    textLine "refresh_matching" settings.matching.name

/-- The settings in the file at a path, if they are valid. -/
def load (tree : Files.Tree) (path : String) : Except Failure Settings := do
  let content ← (tree.read path).mapError .file
  let text ← match Text.decodeUtf8 content with
    | .ok text => .ok text
    | .error _ => .error (.file .notUtf8)
  let settings ← (ofText text).mapError .settings
  (settings.validate).mapError .settings
  .ok settings

/-- Write settings to the file at a path. Gives the outcome and the files after it: the text is put
together before the file is touched. -/
def saveIn (settings : Settings) (tree : Files.Tree) (path : String) :
    Except Failure Unit × Files.Tree :=
  match settings.toText with
  | .error fault => (.error (.settings fault), tree)
  | .ok text => match tree.write path (Text.encodeUtf8 text) none with
    | .error fault => (.error (.file fault), tree)
    | .ok tree => (.ok (), tree)

/-- The files with settings saved in them, if they could be saved. -/
def save (settings : Settings) (tree : Files.Tree) (path : String) : Except Failure Files.Tree :=
  let (outcome, tree) := settings.saveIn tree path
  outcome.map fun _ => tree

end LiveTables.Settings
