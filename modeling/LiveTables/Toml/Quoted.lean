import LiveTables.Text.Escaped

/-!
# Quoted text in configuration documents

Text stands between double quotes, where a backslash starts an escape, or between single quotes,
where every character stands for itself; three quotes on each side let the text have several lines.
-/

namespace LiveTables.Toml

open LiveTables.Text

/-- Characters that cannot be written as they are: controls other than the tab and the line feed. -/
def needsEscape (c : Char) : Bool :=
  (c.toNat ≤ 0x1f || c.toNat == 0x7f) && c != '\t' && c != '\n'

/-- The length of the longest run of a character, in a text that follows a run of length `run`. -/
def longestRun (mark : Char) (run : Nat) : List Char → Nat
  | [] => run
  | c :: rest =>
    if c == mark then longestRun mark (run + 1) rest else max run (longestRun mark 0 rest)

/-- The forms in which text is written. -/
inductive Quotation where
  | basic
  | literal
  | basicLines
  | literalLines
  deriving DecidableEq, Repr

/-- The form in which a text is written: the plainest one that needs no escapes, or, when all need
some, double quotes. -/
def Quotation.of (text : List Char) : Quotation :=
  let controls := text.any needsEscape
  let backslash := text.contains '\\'
  let newline := text.contains '\n'
  let doubles := longestRun '"' 0 text
  let singles := longestRun '\'' 0 text
  if !controls && !backslash && doubles == 0 && !newline then .basic
  else if !controls && singles == 0 && !newline then .literal
  else if !controls && !backslash && doubles ≤ 2 then .basicLines
  else if !controls && singles ≤ 2 then .literalLines
  else if newline then .basicLines
  else .basic

def upperHex (text : List Char) : List Char := text.map Char.toUpper

/-- Write the characters of a text between double quotes. `quotes` double quotes stand directly
before them; a run of more than `limit` is broken by an escape. -/
def escapeFrom (lines : Bool) (limit quotes : Nat) : List Char → List Char
  | [] => []
  | c :: rest =>
    if c == '"' then
      if limit ≤ quotes then '\\' :: '"' :: escapeFrom lines limit 0 rest
      else '"' :: escapeFrom lines limit (quotes + 1) rest
    else if c == '\x08' then '\\' :: 'b' :: escapeFrom lines limit 0 rest
    else if c == '\t' then '\\' :: 't' :: escapeFrom lines limit 0 rest
    else if c == '\n' && !lines then '\\' :: 'n' :: escapeFrom lines limit 0 rest
    else if c == '\x0c' then '\\' :: 'f' :: escapeFrom lines limit 0 rest
    else if c == '\r' then '\\' :: 'r' :: escapeFrom lines limit 0 rest
    else if c == '\\' then '\\' :: '\\' :: escapeFrom lines limit 0 rest
    else if needsEscape c then
      ['\\', 'u'] ++ upperHex (paddedHex 4 c.toNat) ++ escapeFrom lines limit 0 rest
    else c :: escapeFrom lines limit 0 rest

def quoteText (text : List Char) : List Char :=
  let opening : List Char := if text.contains '\n' then ['\n'] else []
  match Quotation.of text with
  | .basic => ['"'] ++ escapeFrom false 0 0 text ++ ['"']
  | .literal => ['\''] ++ text ++ ['\'']
  | .basicLines => ['"', '"', '"'] ++ opening ++ escapeFrom true 2 0 text ++ ['"', '"', '"']
  | .literalLines => ['\'', '\'', '\''] ++ opening ++ text ++ ['\'', '\'', '\'']

/-- Whether a character may stand in quoted text of one line, apart from what ends it or escapes. -/
def isTextChar (c : Char) : Bool := c == '\t' || (0x20 ≤ c.toNat && c.toNat != 0x7f)

def hexDigitValue? (c : Char) : Option Nat :=
  if c.isDigit then some (c.toNat - 48)
  else if 'a' ≤ c && c ≤ 'f' then some (c.toNat - 87)
  else if 'A' ≤ c && c ≤ 'F' then some (c.toNat - 55)
  else none

/-- The character with a number, if there is one. -/
def charOf? (n : Nat) : Option Char := if h : n.isValidChar then some (Char.ofNatAux n h) else none

/-- The character that a backslash and a letter stand for. -/
def shortEscape? (c : Char) : Option Char :=
  if c == 'b' then some '\x08'
  else if c == 't' then some '\t'
  else if c == 'n' then some '\n'
  else if c == 'f' then some '\x0c'
  else if c == 'r' then some '\r'
  else if c == '"' then some '"'
  else if c == '\\' then some '\\'
  else none

/-- Read text between single quotes, from behind the opening one. -/
def readLiteral : List Char → Option (List Char × List Char)
  | '\'' :: rest => some ([], rest)
  | c :: rest =>
    if isTextChar c then (readLiteral rest).map fun (text, rest) => (c :: text, rest) else none
  | [] => none

/-- What follows a run of closing quotes: three of them close, and up to two before those are
text. -/
def closeLines (mark : Char) (text : List Char) : Option (List Char × List Char) :=
  match text with
  | a :: b :: c :: rest =>
    if a == mark && b == mark && c == mark then
      match rest with
      | d :: e :: after =>
        if d == mark && e == mark then some ([mark, mark], after)
        else if d == mark then some ([mark], e :: after)
        else some ([], rest)
      | [d] => if d == mark then some ([mark], []) else some ([], rest)
      | [] => some ([], [])
    else none
  | _ => none

/-- Where a reader of text between double quotes stands. -/
inductive Phase where
  | text
  | escape
  /-- In an escape by number, whose value so far is `value`, before its last digit and `more`
  others. -/
  | code (more value : Nat)
  /-- Among the blanks that a backslash at the end of a line takes with it: the rest of that line,
  and whole blank lines and indentation behind it. -/
  | continued (pastLine : Bool)
  deriving DecidableEq, Repr

/-- What becomes of one character between double quotes: it is passed over, it makes a character of
the text, or it is the first of the quotes that close the text. -/
inductive Step where
  | fail
  | pass (next : Phase)
  | take (c : Char)
  | close (text rest : List Char)
  deriving DecidableEq, Repr

/-- The end of text that starts with a character, and what follows, if the text is closed there. -/
def close? (lines : Bool) (c : Char) (rest : List Char) : Option (List Char × List Char) :=
  if lines then closeLines '"' (c :: rest) else if c == '"' then some ([], rest) else none

def stepText (lines : Bool) (c : Char) (rest : List Char) : Step :=
  match close? lines c rest with
  | some (text, rest) => .close text rest
  | none =>
    if c == '\\' then .pass .escape
    else if lines && c == '\n' then .take '\n'
    else if lines && c == '\r' && rest.head? == some '\n' then .pass .text
    else if isTextChar c then .take c
    else .fail

/-- A step among the blanks behind a backslash. A line must end there before text can go on. -/
def stepContinued (pastLine : Bool) (c : Char) (rest : List Char) : Step :=
  if c == ' ' || c == '\t' then .pass (.continued pastLine)
  else if c == '\n' then .pass (.continued true)
  else if c == '\r' && rest.head? == some '\n' then .pass (.continued pastLine)
  else if pastLine then stepText true c rest
  else .fail

def stepEscape (lines : Bool) (c : Char) (rest : List Char) : Step :=
  if c == 'u' then .pass (.code 3 0)
  else if c == 'U' then .pass (.code 7 0)
  else match shortEscape? c with
    | some char => .take char
    | none => if lines then stepContinued false c rest else .fail

def stepCode (more value : Nat) (c : Char) : Step :=
  match hexDigitValue? c, more with
  | none, _ => .fail
  | some digit, more + 1 => .pass (.code more (16 * value + digit))
  | some digit, 0 => match charOf? (16 * value + digit) with
    | some char => .take char
    | none => .fail

def step (lines : Bool) (phase : Phase) (c : Char) (rest : List Char) : Step :=
  match phase with
  | .text => stepText lines c rest
  | .escape => stepEscape lines c rest
  | .code more value => stepCode more value c
  | .continued pastLine => stepContinued pastLine c rest

/-- Read text between double quotes, of one line or of several, from behind the opening ones. -/
def readBasic (lines : Bool) (phase : Phase) : List Char → Option (List Char × List Char)
  | [] => none
  | c :: rest => match step lines phase c rest with
    | .fail => none
    | .pass next => readBasic lines next rest
    | .take char => (readBasic lines .text rest).map fun (text, rest) => (char :: text, rest)
    | .close text rest => some (text, rest)

/-- Read text of several lines between single quotes, from behind the opening ones. -/
def readLiteralLines (text : List Char) : Option (List Char × List Char) :=
  match closeLines '\'' text with
  | some (text, rest) => some (text, rest)
  | none =>
    match text with
    | '\r' :: '\n' :: rest => (readLiteralLines rest).map fun (text, rest) => ('\n' :: text, rest)
    | c :: rest =>
      if isTextChar c || c == '\n' then
        (readLiteralLines rest).map fun (text, rest) => (c :: text, rest)
      else none
    | [] => none

/-- The text without the line end that it may start with. -/
def afterLineEnd : List Char → List Char
  | '\n' :: rest => rest
  | '\r' :: '\n' :: rest => rest
  | text => text

def readQuoted : List Char → Option (List Char × List Char)
  | '"' :: '"' :: '"' :: rest => readBasic true .text (afterLineEnd rest)
  | '\'' :: '\'' :: '\'' :: rest => readLiteralLines (afterLineEnd rest)
  | '"' :: rest => readBasic false .text rest
  | '\'' :: rest => readLiteral rest
  | _ => none

end LiveTables.Toml
