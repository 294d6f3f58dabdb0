import LiveTables.Console.Arguments
import LiveTables.Console.Command
import LiveTables.Console.Grid
import LiveTables.Console.Help
import LiveTables.Console.Summary
import LiveTables.Session
import LiveTables.Settings.Document

/-!
# The program at the console

The program opens a session as its arguments say, and answers one query or the lines that are typed
at its prompt.
-/

namespace LiveTables.Console

open LiveTables.Files

def prompt : String := programName ++ "> "

/-- Why the program ends before it has done what it was asked for. -/
inductive Ending where
  | settingsNotLoaded (path : String) (cause : Failure)
  | notOpened (cause : Failure)
  | notStarted (cause : Failure)
  | queryFailed (cause : Failure)
  deriving Repr

def Ending.message : Ending → String
  | settingsNotLoaded path _ => "Failed to load config " ++ path
  | notOpened _ => "Failed to open csvdb"
  | notStarted _ => "Failed to start watching"
  | queryFailed _ => "Query failed"

def Ending.cause : Ending → Failure
  | settingsNotLoaded _ cause => cause
  | notOpened cause => cause
  | notStarted cause => cause
  | queryFailed cause => cause

/-- The settings that arguments ask for: those of a settings file, or the standard ones, with the
changes that the arguments make. -/
def settingsOf (tree : Tree) (arguments : Arguments) : Except Ending Settings :=
  match arguments.config with
  | none => .ok (arguments.applyTo .standard)
  | some path => match Settings.load tree path with
    | .ok settings => .ok (arguments.applyTo settings)
    | .error cause => .error (.settingsNotLoaded path cause)

def startSession (host : Host) (arguments : Arguments) (holder : Lock.Holder) :
    Except Ending Session × Host :=
  match settingsOf host.tree arguments with
  | .error ending => (.error ending, host)
  | .ok settings => match Session.open host settings holder with
    | (.error cause, host) => (.error (.notOpened cause), host)
    | (.ok session, host) => match session.start host.tree with
      | (.error cause, session) => (.error (.notStarted cause), session.close host)
      | (.ok _, session) => (.ok session, host)

inductive Response where
  | nothing
  | quit
  | text (content : String)
  | outcome (outcome : Session.Outcome)
  | failure (cause : Failure)

def tablesText (tables : List (String × String)) : String :=
  if tables.isEmpty then "No tables.\n"
  else Grid.render ["TABLE", "SOURCE"] (tables.map fun table => [table.1, table.2]) ++ "\n"

def columnsText (columns : List Table.Column) : String :=
  Grid.render ["COLUMN", "TYPE"] (columns.map fun column => [column.name, column.type.name]) ++ "\n"

/-- An answer as a grid with a summary under it. -/
def outcomeText (outcome : Session.Outcome) (seconds nanos : Nat) : String :=
  let answer := outcome.answer
  (if answer.columns.isEmpty then ""
    else Grid.render answer.columns (answer.rows.map fun row => row.map Value.render) ++ "\n") ++
    summary answer.rows.length outcome.refreshed seconds nanos ++ "\n"

def respond (session : Session) (tree : Tree) : Command → Response × Session
  | .empty => (.nothing, session)
  | .quit => (.quit, session)
  | .showTables =>
    let (tables, session) := session.showTables tree
    (.text (tablesText tables), session)
  | .describe table => match session.describeTable tree table with
    | (.ok columns, session) => (.text (columnsText columns), session)
    | (.error cause, session) => (.failure cause, session)
  | .query text => match session.execute tree text with
    | (.ok outcome, session) => (.outcome outcome, session)
    | (.error cause, session) => (.failure cause, session)

/-- What a whole run of the program leaves behind: its exit code and what it wrote on its two
outputs. -/
structure Transcript where
  exit : Nat
  output : String
  errors : List String

namespace Transcript

def write (transcript : Transcript) (text : String) : Transcript :=
  { transcript with output := transcript.output ++ text }

def report (transcript : Transcript) (message : String) : Transcript :=
  { transcript with errors := transcript.errors ++ ["Error: " ++ message] }

end Transcript

/-- Answer typed lines until one asks to quit or there are no more, when queries take no time. -/
def answerLines (session : Session) (tree : Tree) (transcript : Transcript) :
    List String → Transcript
  | [] => transcript.write (prompt ++ "\n")
  | line :: rest =>
    let transcript := transcript.write prompt
    match respond session tree (.ofLine line) with
    | (.nothing, session) => answerLines session tree transcript rest
    | (.quit, _) => transcript
    | (.text content, session) => answerLines session tree (transcript.write content) rest
    | (.outcome outcome, session) =>
      answerLines session tree (transcript.write (outcomeText outcome 0 0)) rest
    | (.failure cause, session) =>
      answerLines session tree (transcript.report cause.message) rest

/-- Answer one query, when it takes no time. -/
def answerQuery (session : Session) (tree : Tree) (query : String) : Transcript :=
  match session.execute tree query with
  | (.ok outcome, _) => ⟨0, outcomeText outcome 0 0, []⟩
  | (.error cause, _) => Transcript.report ⟨1, "", []⟩ (Ending.queryFailed cause).message

/-- A whole run of the program on typed lines. -/
def run (host : Host) (holder : Lock.Holder) (arguments lines : List String) : Transcript :=
  match Arguments.read arguments with
  | .error (.displayHelp full) => ⟨0, helpText full, []⟩
  | .error .displayVersion => ⟨0, versionText, []⟩
  | .error _ => ⟨2, "", []⟩
  | .ok arguments => match startSession host arguments holder with
    | (.error ending, _) => Transcript.report ⟨1, "", []⟩ ending.message
    | (.ok session, host) => match arguments.execute with
      | some query => answerQuery session host.tree query
      | none => answerLines session host.tree ⟨0, "", []⟩ lines

end LiveTables.Console
