import LiveTables.Toml.Quoted
import LiveTables.Toml.Scalar

/-!
# Reading configuration documents

A document is a sequence of lines, each with a key and a value, a table header, a comment or
nothing. Keys behind a header belong to its table. A document with a line that is none of these, or
that gives a key or a table twice, is not read at all.
-/

namespace LiveTables.Toml

def isBlank (c : Char) : Bool := c == ' ' || c == '\t'

def skipBlanks (text : List Char) : List Char := text.dropWhile isBlank

/-- What follows blanks, line ends and comments. -/
def skipFiller (inComment : Bool) : List Char → Option (List Char)
  | [] => some []
  | '\n' :: rest => skipFiller false rest
  | '\r' :: '\n' :: rest => skipFiller false rest
  | c :: rest =>
    if inComment then if isTextChar c then skipFiller true rest else none
    else if isBlank c then skipFiller false rest
    else if c == '#' then skipFiller true rest
    else some (c :: rest)

/-- What follows the end of a line, which blanks and a comment may stand in front of. -/
def endLine (inComment : Bool) : List Char → Option (List Char)
  | [] => some []
  | '\n' :: rest => some rest
  | '\r' :: '\n' :: rest => some rest
  | c :: rest =>
    if inComment then if isTextChar c then endLine true rest else none
    else if isBlank c then endLine false rest
    else if c == '#' then endLine true rest
    else none

def isKeyChar (c : Char) : Bool := c.isAlphanum || c == '_' || c == '-'

def readKeyPart (text : List Char) : Option (String × List Char) :=
  match text with
  | '"' :: rest => (readBasic false .text rest).map fun (key, rest) => (String.ofList key, rest)
  | '\'' :: rest => (readLiteral rest).map fun (key, rest) => (String.ofList key, rest)
  | text =>
    let key := text.takeWhile isKeyChar
    if key.isEmpty then none else some (String.ofList key, text.dropWhile isKeyChar)

/-- A key of at most `fuel` parts: the parts in front and the last one, and what follows it. -/
def readKey : Nat → List Char → Option (List String × String × List Char)
  | 0, _ => none
  | fuel + 1, text => do
    let (part, rest) ← readKeyPart (skipBlanks text)
    match skipBlanks rest with
    | '.' :: rest =>
      let (path, last, rest) ← readKey fuel rest
      some (part :: path, last, rest)
    | rest => some ([], part, rest)

mutual

/-- A value. Every two steps of reading use up a character, so twice the length of the text is fuel
enough. -/
def readValue : Nat → List Char → Option (Value × List Char)
  | 0, _ => none
  | fuel + 1, text => match text with
    | '[' :: rest => do
      let (items, rest) ← readItems fuel rest
      some (.array items, rest)
    | '\x7b' :: rest => match skipBlanks rest with
      | '\x7d' :: rest => some (.table .inline [], rest)
      | rest => do
        let (entries, rest) ← readPairs fuel [] rest
        some (.table .inline entries, rest)
    | '"' :: _ => (readQuoted text).map fun (text, rest) => (.string (String.ofList text), rest)
    | '\'' :: _ => (readQuoted text).map fun (text, rest) => (.string (String.ofList text), rest)
    | text => do
      let (word, rest) := spanScalar text
      some (← ofScalar? word, rest)

/-- The items of an array up to its end. -/
def readItems : Nat → List Char → Option (List Value × List Char)
  | 0, _ => none
  | fuel + 1, text => do
    match ← skipFiller false text with
    | ']' :: rest => some ([], rest)
    | text =>
      let (item, rest) ← readValue fuel text
      match ← skipFiller false rest with
      | ',' :: rest =>
        let (items, rest) ← readItems fuel rest
        some (item :: items, rest)
      | ']' :: rest => some ([item], rest)
      | _ => none

/-- The entries of an inline table up to its end, added to those that were read before. -/
def readPairs : Nat → Entries → List Char → Option (Entries × List Char)
  | 0, _, _ => none
  | fuel + 1, entries, text => do
    let (path, key, rest) ← readKey text.length text
    match rest with
    | '=' :: rest =>
      let (value, rest) ← readValue fuel (skipBlanks rest)
      let entries ← entries.addDotted? path key value
      match skipBlanks rest with
      | ',' :: rest => readPairs fuel entries rest
      | '\x7d' :: rest => some (entries, rest)
      | _ => none
    | _ => none

end

/-- The document read so far, and the keys that lead to the table which the next line adds to. -/
structure Draft where
  entries : Entries
  path : List String

namespace Draft

def openTable? (draft : Draft) (path : List String) (key : String) : Option Draft := do
  let entries ← draft.entries.updateAt false (fun _ inner =>
    match inner.lookup key with
    | none => some (inner ++ [(key, .table .header [])])
    | some (.table .implied entries) => some (inner.set key (.table .header entries))
    | some _ => none) .header path
  some ⟨entries, path ++ [key]⟩

def openArray? (draft : Draft) (path : List String) (key : String) : Option Draft := do
  let entries ← draft.entries.updateAt false (fun _ inner =>
    match inner.lookup key with
    | none => some (inner ++ [(key, .tables [[]])])
    | some (.tables tables) => some (inner.set key (.tables ([] :: tables)))
    | some _ => none) .header path
  some ⟨entries, path ++ [key]⟩

/-- Add a value to the table that was started last. -/
def add? (draft : Draft) (path : List String) (key : String) (value : Value) : Option Draft := do
  let entries ← draft.entries.updateAt false (fun _ inner => inner.addDotted? path key value)
    .header draft.path
  some { draft with entries }

end Draft

/-- Read the first line of a text into a draft. -/
def readLine (draft : Draft) (text : List Char) : Option (Draft × List Char) :=
  match skipBlanks text with
  | '[' :: '[' :: rest => do
    let (path, key, rest) ← readKey rest.length rest
    match rest with
    | ']' :: ']' :: rest => some (← draft.openArray? path key, ← endLine false rest)
    | _ => none
  | '[' :: rest => do
    let (path, key, rest) ← readKey rest.length rest
    match rest with
    | ']' :: rest => some (← draft.openTable? path key, ← endLine false rest)
    | _ => none
  | text => match endLine false text with
    | some rest => some (draft, rest)
    | none => do
      let (path, key, rest) ← readKey text.length text
      match rest with
      | '=' :: rest =>
        let rest := skipBlanks rest
        let (value, rest) ← readValue (2 * rest.length + 2) rest
        some (← draft.add? path key value, ← endLine false rest)
      | _ => none

/-- Read the lines of a text, at most `fuel` of them, into a draft. -/
def readLines : Nat → Draft → List Char → Option Draft
  | _, draft, [] => some draft
  | 0, _, _ => none
  | fuel + 1, draft, text => do
    let (draft, rest) ← readLine draft text
    readLines fuel draft rest

def readDocument (text : List Char) : Option Entries :=
  let text := if text.head? == some '\ufeff' then text.tail else text
  (readLines text.length ⟨[], []⟩ text).map (·.entries)

end LiveTables.Toml
