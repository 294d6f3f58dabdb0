/-!
# Help

What the program says about its options: one line for each, or, in full, a paragraph for each.
-/

namespace LiveTables.Console

def programName : String := "csvdb"

def versionText : String := programName ++ " 0.1.0\n"

structure OptionHelp where
  letter : Option Char
  /-- The name, with the name of the option's value behind it. -/
  name : String
  about : String
  /-- The values that can be chosen from, and what each means. -/
  choices : List (String × String)

namespace OptionHelp

/-- The option as it is typed. Options without a letter leave its place blank. -/
def spelling (option : OptionHelp) : String :=
  (match option.letter with
    | some letter => "  -" ++ String.ofList [letter] ++ ", "
    | none => "      ") ++ "--" ++ option.name

end OptionHelp

/-- The options in the order in which help lists them. -/
def optionHelps (aboutHelp : String) : List OptionHelp :=
  [⟨none, "csvdir <CSVDIR>", "Directory of delimited files to watch [default: data]", []⟩,
   ⟨none, "config <CONFIG>", "TOML config file; flags given here override it", []⟩,
   ⟨none, "extension <EXTENSION>", "File extension to watch", []⟩,
   ⟨none, "delimiter <DELIMITER>", "Field delimiter", []⟩,
   ⟨none, "no-headers", "Files have no header row", []⟩,
   ⟨none, "poll-ms <POLL_MS>", "Poll interval in milliseconds", []⟩,
   ⟨none, "database <DATABASE>", "On-disk engine store (in-memory when omitted)", []⟩,
   ⟨none, "match <MATCHING>", "How queries are matched to tables before refreshing",
    [("substring", "Table name appears anywhere in the query text (case-insensitive). " ++
        "Can over-match on literals or longer identifiers"),
     ("identifiers",
      "Table name appears as a whole identifier outside literals and comments")]⟩,
   ⟨some 'e', "execute <EXECUTE>", "Run one query after startup and exit", []⟩,
   ⟨some 'v', "verbose", "Enable verbose logging (info/debug to stderr)", []⟩,
   ⟨some 'h', "help", aboutHelp, []⟩,
   ⟨some 'V', "version", "Print version", []⟩]

def blanks (count : Nat) : String := String.ofList (List.replicate count ' ')

def longest (texts : List String) : Nat := (texts.map String.length).foldl max 0

def filled (length : Nat) (text : String) : String := text ++ blanks (length - text.length)

/-- One line about an option, behind spellings of at most `room` characters. -/
def OptionHelp.line (room : Nat) (option : OptionHelp) : String :=
  filled room option.spelling ++ "  " ++ option.about ++
    (if option.choices.isEmpty then ""
      else " [possible values: " ++ ", ".intercalate (option.choices.map (·.1)) ++ "]")

def margin : String := blanks 10

/-- A paragraph about an option, with a line for each of its choices. -/
def OptionHelp.paragraph (option : OptionHelp) : String :=
  let room := longest (option.choices.map (·.1))
  let choices := option.choices.map fun choice =>
    "\n" ++ margin ++ "- " ++ filled (room + 2) (choice.1 ++ ": ") ++ choice.2
  option.spelling ++ "\n" ++ margin ++ option.about ++
    (if option.choices.isEmpty then ""
      else "\n\n" ++ margin ++ "Possible values:" ++ "".intercalate choices)

/-- Help on all options, in full or with one line for each. -/
def helpText (full : Bool) : String :=
  let options := optionHelps
    (if full then "Print help (see a summary with '-h')" else "Print help (see more with '--help')")
  "Query a directory of delimited files as SQL tables\n\nUsage: " ++ programName ++
    " [OPTIONS]\n\nOptions:\n" ++
    (if full then "\n\n".intercalate (options.map OptionHelp.paragraph)
      else "\n".intercalate (options.map (OptionHelp.line (longest (options.map (·.spelling)))))) ++
    "\n"

end LiveTables.Console
