import LiveTables.Text.Blank

/-!
# Console commands

What a line typed at the prompt asks for.
-/

namespace LiveTables.Console

open LiveTables.Text

inductive Command where
  | empty
  | quit
  | showTables
  | describe (table : String)
  | query (text : String)
  deriving DecidableEq, Repr

/-- The command of a line. A command word with the wrong company is a query, which loses the
semicolons at its end. -/
def Command.ofLine (line : String) : Command :=
  let line := trim line.toList
  let (head, rest) := line.span (!isBlank ·)
  let rest := trim rest
  let word := String.ofList (head.map Char.toLower)
  if word == "" then .empty
  else if (word == "quit" || word == "exit") && rest.isEmpty then .quit
  else if word == "show" && rest.isEmpty then .showTables
  else if word == "dt" && !rest.isEmpty then .describe (String.ofList rest)
  else .query (String.ofList (dropEndWhile (· == ';') line))

/-- A line without the carriage return that may end it. -/
def withoutReturn (line : String) : String :=
  match line.toList.reverse with
  | '\r' :: rest => String.ofList rest.reverse
  | _ => line

/-- The lines of what is typed. Nothing behind the last line feed is no line. -/
def typedLines (text : String) : List String :=
  let lines := text.splitOn "\n"
  (if lines.getLast? == some "" then lines.dropLast else lines).map withoutReturn

end LiveTables.Console
