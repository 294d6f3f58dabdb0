import LiveTables.Number.Decimal
import LiveTables.Settings.Basic

/-!
# Command-line arguments

Options are given by name, some with a value, each at most once; there are no other arguments.
Options are taken in order. A value that is an argument of its own is looked at when the next option
is taken, so an argument that cannot be taken at all is the fault that counts, even behind a value
that does not fit.
-/

namespace LiveTables.Console

open LiveTables.Settings

/-- Why arguments are refused, or what they ask for instead of running. -/
inductive ArgumentFault where
  | unknownArgument
  | invalidValue
  | valueValidation
  | tooManyValues
  | argumentConflict
  /-- Help, in full or in one line for each option. -/
  | displayHelp (full : Bool)
  | displayVersion
  deriving DecidableEq, Repr

inductive ValueOption where
  | csvdir
  | config
  | extension
  | delimiter
  | pollMs
  | database
  | matching
  | execute
  deriving DecidableEq, Repr

inductive FlagOption where
  | noHeaders
  | verbose
  | help (full : Bool)
  | version
  deriving DecidableEq, Repr

inductive ArgOption where
  | value (option : ValueOption)
  | flag (option : FlagOption)
  deriving DecidableEq, Repr

/-- The option of a name after two dashes. -/
def longOption? (name : String) : Option ArgOption :=
  match name with
  | "csvdir" => some (.value .csvdir)
  | "config" => some (.value .config)
  | "extension" => some (.value .extension)
  | "delimiter" => some (.value .delimiter)
  | "no-headers" => some (.flag .noHeaders)
  | "poll-ms" => some (.value .pollMs)
  | "database" => some (.value .database)
  | "match" => some (.value .matching)
  | "execute" => some (.value .execute)
  | "verbose" => some (.flag .verbose)
  | "help" => some (.flag (.help true))
  | "version" => some (.flag .version)
  | _ => none

/-- The option of a letter after one dash. -/
def shortOption? (letter : Char) : Option ArgOption :=
  match letter with
  | 'e' => some (.value .execute)
  | 'v' => some (.flag .verbose)
  | 'h' => some (.flag (.help false))
  | 'V' => some (.flag .version)
  | _ => none

structure Arguments where
  csvdir : Option String
  config : Option String
  extension : Option String
  delimiter : Option Char
  noHeaders : Bool
  pollMs : Option Nat
  database : Option String
  matching : Option Matching
  execute : Option String
  verbose : Bool
  deriving DecidableEq, Repr

namespace Arguments

def none : Arguments :=
  { csvdir := .none, config := .none, extension := .none, delimiter := .none, noHeaders := false
    pollMs := .none, database := .none, matching := .none, execute := .none, verbose := false }

/-- Put a value where none may be yet. -/
def once {α : Type} (present : Option α) (value : Except ArgumentFault α) :
    Except ArgumentFault (Option α) :=
  if present.isSome then .error .argumentConflict else value.map some

def pathValue (text : String) : Except ArgumentFault String :=
  if text.isEmpty then .error .invalidValue else .ok text

def charValue (text : String) : Except ArgumentFault Char :=
  match text.toList with
  | [c] => .ok c
  | _ => .error .valueValidation

/-- A whole number of 64 bits, which a plus sign may stand in front of. -/
def numberValue (text : String) : Except ArgumentFault Nat :=
  let digits := match text.toList with
    | '+' :: digits => digits
    | digits => digits
  if digits.isEmpty || !digits.all Number.isDigit ||
      18446744073709551616 ≤ Number.digitsValue digits then
    .error .valueValidation
  else .ok (Number.digitsValue digits)

def matchingValue (text : String) : Except ArgumentFault Matching :=
  match Matching.ofName? text with
  | some matching => .ok matching
  | .none => .error .invalidValue

def setValue (arguments : Arguments) (text : String) : ValueOption → Except ArgumentFault Arguments
  | .csvdir => (once arguments.csvdir (pathValue text)).map ({ arguments with csvdir := · })
  | .config => (once arguments.config (pathValue text)).map ({ arguments with config := · })
  | .extension => (once arguments.extension (.ok text)).map ({ arguments with extension := · })
  | .delimiter => (once arguments.delimiter (charValue text)).map
    ({ arguments with delimiter := · })
  | .pollMs => (once arguments.pollMs (numberValue text)).map ({ arguments with pollMs := · })
  | .database => (once arguments.database (pathValue text)).map ({ arguments with database := · })
  | .matching => (once arguments.matching (matchingValue text)).map
    ({ arguments with matching := · })
  | .execute => (once arguments.execute (.ok text)).map ({ arguments with execute := · })

def setFlag (arguments : Arguments) : FlagOption → Except ArgumentFault Arguments
  | .noHeaders =>
    if arguments.noHeaders then .error .argumentConflict
    else .ok { arguments with noHeaders := true }
  | .verbose =>
    if arguments.verbose then .error .argumentConflict
    else .ok { arguments with verbose := true }
  | .help full => .error (.displayHelp full)
  | .version => .error .displayVersion

/-- An option whose value comes as an argument of its own, and that value once it has come. -/
structure Waiting where
  option : ValueOption
  text : Option String

/-- The arguments read so far, and the option that is not settled yet. -/
structure Progress where
  arguments : Arguments
  waiting : Option Waiting

/-- Take the option that is not settled yet, which must have its value by now. -/
def Progress.settle (progress : Progress) : Except ArgumentFault Arguments :=
  match progress.waiting with
  | .none => .ok progress.arguments
  | some ⟨_, .none⟩ => .error .invalidValue
  | some ⟨option, some text⟩ => progress.arguments.setValue text option

/-- Take an option, with a value that is attached to it or without one. -/
def Progress.take (progress : Progress) (option : ArgOption) (attached : Option String) :
    Except ArgumentFault Progress :=
  match option, attached with
  | .flag _, some _ => .error .tooManyValues
  | .flag flag, .none => do
    let arguments ← progress.settle
    .ok ⟨← arguments.setFlag flag, .none⟩
  | .value option, some text => do
    let arguments ← progress.settle
    .ok ⟨← arguments.setValue text option, .none⟩
  | .value option, .none => do
    .ok ⟨← progress.settle, some ⟨option, .none⟩⟩

/-- Take the letters after one dash. -/
def takeLetters (progress : Progress) : List Char → Except ArgumentFault Progress
  | [] => .ok progress
  | letter :: rest =>
    match shortOption? letter, rest with
    | .none, _ => .error .unknownArgument
    | some (.flag flag), _ => do
      let progress ← progress.take (.flag flag) .none
      takeLetters progress rest
    | some option, [] => progress.take option .none
    | some option, '=' :: text => progress.take option (some (String.ofList text))
    | some option, text => progress.take option (some (String.ofList text))

/-- Take what stands after two dashes: a name, and a value behind an equals sign. -/
def takeLong (progress : Progress) (text : List Char) : Except ArgumentFault Progress :=
  let (name, rest) := text.span (· != '=')
  match longOption? (String.ofList name), rest with
  | .none, _ => .error .unknownArgument
  | some option, [] => progress.take option .none
  | some option, _ :: value => progress.take option (some (String.ofList value))

/-- Take an argument that is no option: it must be the value that an option waits for. -/
def takePlain (progress : Progress) (text : String) : Except ArgumentFault Progress :=
  match progress.waiting with
  | some ⟨option, .none⟩ => .ok { progress with waiting := some ⟨option, some text⟩ }
  | _ => .error .unknownArgument

/-- Read arguments into those that were read before. Behind two dashes nothing more may come. -/
def readFrom (progress : Progress) : List String → Except ArgumentFault Progress
  | [] => .ok progress
  | argument :: rest =>
    match argument.toList with
    | ['-', '-'] => if rest.isEmpty then .ok progress else .error .unknownArgument
    | '-' :: '-' :: text => do
      let progress ← takeLong progress text
      readFrom progress rest
    | '-' :: letter :: letters => do
      let progress ← takeLetters progress (letter :: letters)
      readFrom progress rest
    | _ => do
      let progress ← takePlain progress argument
      readFrom progress rest

/-- The meaning of a program's arguments, without the program's name. -/
def read (arguments : List String) : Except ArgumentFault Arguments := do
  let progress ← readFrom ⟨.none, .none⟩ arguments
  progress.settle

def applyTo (arguments : Arguments) (settings : Settings) : Settings :=
  { directory := arguments.csvdir.getD settings.directory
    extension := arguments.extension.getD settings.extension
    delimiter := arguments.delimiter.getD settings.delimiter
    hasHeaders := settings.hasHeaders && !arguments.noHeaders
    pollInterval := arguments.pollMs.getD settings.pollInterval
    databasePath := arguments.database.or settings.databasePath
    matching := arguments.matching.getD settings.matching }

end Arguments

end LiveTables.Console
