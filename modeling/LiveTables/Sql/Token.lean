import LiveTables.Text.Word

/-!
# Tokens of statement text

How the store reads statement text: a comment that starts with `--` ends before the next line feed
or carriage return, comments between `/*` and `*/` nest, and a quote inside quotes is written twice.
Text with an unfinished comment or quotation has no tokens.
-/

namespace LiveTables.Sql

inductive Token where
  | word (text : String)
  | quoted (name : String)
  | literal (text : String)
  | number (digits : String)
  | symbol (c : Char)
  deriving DecidableEq, Repr

def isSpace (c : Char) : Bool :=
  c == ' ' || c == '\t' || c == '\n' || c == '\r' || c == '\x0c' || c == '\x0b'

/-- The characters that a bare name starts with: letters, the underscore, and all beyond ASCII. -/
def startsName (c : Char) : Bool := c.isAlpha || c == '_' || 0x80 ≤ c.toNat

def continuesName (c : Char) : Bool := startsName c || c.isDigit || c == '$'

def skipLine : List Char → List Char
  | [] => []
  | c :: rest => if c == '\n' || c == '\r' then c :: rest else skipLine rest

/-- What follows a block comment in which `depth` more comments are open. -/
def skipBlock (depth : Nat) : List Char → Option (List Char)
  | '*' :: '/' :: rest => match depth with
    | 0 => some rest
    | outer + 1 => skipBlock outer rest
  | '/' :: '*' :: rest => skipBlock (depth + 1) rest
  | _ :: rest => skipBlock depth rest
  | [] => none

/-- The text between quotes, and what follows the closing one. -/
def readQuoted (mark : Char) : List Char → Option (List Char × List Char)
  | [] => none
  | c :: rest =>
    if c != mark then (readQuoted mark rest).map fun (text, rest) => (c :: text, rest)
    else match rest with
      | [] => some ([], [])
      | next :: after =>
        if next == mark then (readQuoted mark after).map fun (text, rest) => (mark :: text, rest)
        else some ([], next :: after)

theorem length_skipLine_le : (text : List Char) → (skipLine text).length ≤ text.length
  | [] => by simp [skipLine]
  | c :: rest => by
    unfold skipLine
    split
    · simp
    · exact Nat.le_succ_of_le (length_skipLine_le rest)

theorem length_of_skipBlock {depth : Nat} {text rest : List Char}
    (h : skipBlock depth text = some rest) : rest.length ≤ text.length := by
  fun_induction skipBlock depth text <;> simp_all <;> omega

theorem length_of_readQuoted {mark : Char} {text inner rest : List Char}
    (h : readQuoted mark text = some (inner, rest)) : rest.length ≤ text.length := by
  fun_induction readQuoted mark text generalizing inner rest with
  | case1 => simp at h
  | case2 c tail hc ih =>
    obtain ⟨⟨inner', rest'⟩, hread, heq⟩ := Option.map_eq_some_iff.1 h
    have := ih hread
    simp_all
    omega
  | case3 => simp_all
  | case4 c next after hc hnext ih =>
    obtain ⟨⟨inner', rest'⟩, hread, heq⟩ := Option.map_eq_some_iff.1 h
    have := ih hread
    simp_all
    omega
  | case5 => simp_all

/-- The tokens of a text, if every comment and quotation in it is finished. -/
def tokens (text : List Char) : Option (List Token) :=
  match text with
  | [] => some []
  | c :: rest =>
    if isSpace c then tokens rest
    else if c == '-' && rest.head? == some '-' then tokens (skipLine rest)
    else if c == '/' && rest.head? == some '*' then
      match _h : skipBlock 0 (rest.drop 1) with
      | none => none
      | some rest' => tokens rest'
    else if c == '\'' || c == '"' then
      match _h : readQuoted c rest with
      | none => none
      | some (inner, rest') =>
        (tokens rest').map
          ((if c == '"' then .quoted (String.ofList inner)
            else .literal (String.ofList inner)) :: ·)
    else if startsName c then
      (tokens (rest.dropWhile continuesName)).map
        (.word (String.ofList (c :: rest.takeWhile continuesName)) :: ·)
    else if c.isDigit then
      (tokens (rest.dropWhile Char.isDigit)).map
        (.number (String.ofList (c :: rest.takeWhile Char.isDigit)) :: ·)
    else (tokens rest).map (.symbol c :: ·)
termination_by text.length
decreasing_by
  all_goals simp_wf
  · have := length_skipLine_le rest
    omega
  · have := length_of_skipBlock _h
    simp only [List.length_drop] at this
    omega
  · have := length_of_readQuoted _h
    omega
  · have := (List.dropWhile_sublist continuesName (l := rest)).length_le
    omega
  · have := (List.dropWhile_sublist Char.isDigit (l := rest)).length_le
    omega

end LiveTables.Sql
