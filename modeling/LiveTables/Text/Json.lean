import LiveTables.Number.Decimal
import LiveTables.Text.Escaped
import LiveTables.Text.Utf8

/-!
# JSON text

Strict JSON, read from bytes. Strings are kept as they are written; only those that are asked for
have to be UTF-8 and to escape whole characters.
-/

namespace LiveTables.Text.Json

open LiveTables.Number

inductive Token where
  | mark (c : Char)
  | word (letters : List Char)
  | number (text : List Char)
  | string (raw : List UInt8)
  deriving DecidableEq, Repr

def byteChar (b : UInt8) : Char := Char.ofNat b.toNat

def isHexDigit (c : Char) : Bool := c.isDigit || ('a' ≤ c && c ≤ 'f') || ('A' ≤ c && c ≤ 'F')

/-- The inside of a string, as written, and what follows its closing quote. -/
def readString : List UInt8 → Option (List UInt8 × List UInt8)
  | [] => none
  | b :: rest =>
    if byteChar b == '"' then some ([], rest)
    else if b < 0x20 then none
    else if byteChar b == '\\' then
      match rest with
      | [] => none
      | e :: rest =>
        if byteChar e == 'u' then
          match rest with
          | h1 :: h2 :: h3 :: h4 :: rest =>
            if [h1, h2, h3, h4].all fun h => isHexDigit (byteChar h) then
              (readString rest).map fun (raw, rest) => (b :: e :: h1 :: h2 :: h3 :: h4 :: raw, rest)
            else none
          | _ => none
        else if ['"', '\\', '/', 'b', 'f', 'n', 'r', 't'].contains (byteChar e) then
          (readString rest).map fun (raw, rest) => (b :: e :: raw, rest)
        else none
    else (readString rest).map fun (raw, rest) => (b :: raw, rest)

theorem length_of_readString {text raw rest : List UInt8}
    (h : readString text = some (raw, rest)) : rest.length ≤ text.length := by
  fun_induction readString text generalizing raw rest <;>
    simp_all only [Option.map_eq_some_iff, Prod.exists, Prod.mk.injEq, Option.some.injEq,
      reduceCtorEq, List.length_cons]
  all_goals grind

/-- Whether a text is digits without a zero in front of others. -/
def isWholeNumber (digits : List Char) : Bool :=
  !digits.isEmpty && digits.all isDigit && (digits.length == 1 || digits.head? != some '0')

/-- Whether a text is a number: a sign, a whole number, a fraction and an exponent. -/
def isNumber (text : List Char) : Bool :=
  let text := if text.head? == some '-' then text.tail else text
  let (whole, rest) := spanDigits text
  let (fraction, rest) := match rest with
    | '.' :: rest => ((spanDigits rest).1, (spanDigits rest).2)
    | rest => (['0'], rest)
  isWholeNumber whole && !fraction.isEmpty && (rest.isEmpty || (readExponent? rest).isSome)

def continuesNumber (b : UInt8) : Bool :=
  let c := byteChar b
  c.isDigit || c == '-' || c == '+' || c == '.' || c == 'e' || c == 'E'

/-- The tokens of a text, if it consists of tokens. -/
def tokens (text : List UInt8) : Option (List Token) :=
  match text with
  | [] => some []
  | b :: rest =>
    let c := byteChar b
    if c == ' ' || c == '\t' || c == '\n' || c == '\r' then tokens rest
    else if c == '"' then
      match _h : readString rest with
      | none => none
      | some (raw, rest') => (tokens rest').map (.string raw :: ·)
    else if c == '-' || c.isDigit then
      let number := c :: (rest.takeWhile continuesNumber).map byteChar
      if isNumber number then (tokens (rest.dropWhile continuesNumber)).map (.number number :: ·)
      else none
    else if c.isAlpha then
      (tokens (rest.dropWhile fun b => (byteChar b).isAlpha)).map
        (.word (c :: (rest.takeWhile fun b => (byteChar b).isAlpha).map byteChar) :: ·)
    else if ['[', ']', '\x7b', '\x7d', ',', ':'].contains c then (tokens rest).map (.mark c :: ·)
    else none
termination_by text.length
decreasing_by
  all_goals simp_wf
  · have := length_of_readString _h
    omega
  · have := (List.dropWhile_sublist continuesNumber (l := rest)).length_le
    omega
  · have := (List.dropWhile_sublist (fun b => (byteChar b).isAlpha) (l := rest)).length_le
    omega

/-- A JSON value. Numbers and strings are as written. -/
inductive Value where
  | word (letters : List Char)
  | number (text : List Char)
  | string (raw : List UInt8)
  | array (items : List Value)
  | object (fields : List (List UInt8 × Value))

def isWord (letters : List Char) : Bool :=
  letters == "null".toList || letters == "true".toList || letters == "false".toList

mutual

/-- The value that tokens start with, read to a depth of at most `fuel`, and what follows it. -/
def readValue : Nat → List Token → Option (Value × List Token)
  | 0, _ => none
  | fuel + 1, tokens => match tokens with
    | .word letters :: rest => if isWord letters then some (.word letters, rest) else none
    | .number text :: rest => some (.number text, rest)
    | .string raw :: rest => some (.string raw, rest)
    | .mark '[' :: .mark ']' :: rest => some (.array [], rest)
    | .mark '[' :: rest => (readItems fuel rest).map fun (items, rest) => (.array items, rest)
    | .mark '\x7b' :: .mark '\x7d' :: rest => some (.object [], rest)
    | .mark '\x7b' :: rest => (readFields fuel rest).map fun (fields, rest) =>
      (.object fields, rest)
    | _ => none

/-- The items of an array up to its end, and what follows it. -/
def readItems : Nat → List Token → Option (List Value × List Token)
  | 0, _ => none
  | fuel + 1, tokens => match readValue fuel tokens with
    | some (item, .mark ']' :: rest) => some ([item], rest)
    | some (item, .mark ',' :: rest) =>
      (readItems fuel rest).map fun (items, rest) => (item :: items, rest)
    | _ => none

/-- The fields of an object up to its end, and what follows it. -/
def readFields : Nat → List Token → Option (List (List UInt8 × Value) × List Token)
  | 0, _ => none
  | fuel + 1, tokens => match tokens with
    | .string name :: .mark ':' :: rest => match readValue fuel rest with
      | some (value, .mark '\x7d' :: rest) => some ([(name, value)], rest)
      | some (value, .mark ',' :: rest) =>
        (readFields fuel rest).map fun (fields, rest) => ((name, value) :: fields, rest)
      | _ => none
    | _ => none

end

/-- The value that a text is. Every level of reading uses up at least half a token. -/
def read? (text : List UInt8) : Option Value :=
  match tokens text with
  | none => none
  | some tokens => match readValue (2 * tokens.length + 1) tokens with
    | some (value, []) => some value
    | _ => none

def hexValue (c : Char) : Nat :=
  if c.isDigit then c.toNat - 48 else c.toLower.toNat - 87

def hexUnit (h1 h2 h3 h4 : Char) : Nat :=
  ((hexValue h1 * 16 + hexValue h2) * 16 + hexValue h3) * 16 + hexValue h4

/-- The character of a pair of code units, if the pair is one. -/
def joinUnits? (first second : Nat) : Option Char :=
  if 0xd800 ≤ first && first ≤ 0xdbff && 0xdc00 ≤ second && second ≤ 0xdfff then
    some (Char.ofNat (0x10000 + (first - 0xd800) * 1024 + (second - 0xdc00)))
  else none

/-- The characters that an inside of a string stands for. -/
def unescape? : List Char → Option (List Char)
  | [] => some []
  | '\\' :: 'u' :: h1 :: h2 :: h3 :: h4 :: rest =>
    let unit := hexUnit h1 h2 h3 h4
    if 0xd800 ≤ unit && unit ≤ 0xdfff then
      match rest with
      | '\\' :: 'u' :: g1 :: g2 :: g3 :: g4 :: rest => do
        some ((← joinUnits? unit (hexUnit g1 g2 g3 g4)) :: (← unescape? rest))
      | _ => none
    else (unescape? rest).map (Char.ofNat unit :: ·)
  | '\\' :: 'b' :: rest => (unescape? rest).map ('\x08' :: ·)
  | '\\' :: 'f' :: rest => (unescape? rest).map ('\x0c' :: ·)
  | '\\' :: 'n' :: rest => (unescape? rest).map ('\n' :: ·)
  | '\\' :: 'r' :: rest => (unescape? rest).map ('\r' :: ·)
  | '\\' :: 't' :: rest => (unescape? rest).map ('\t' :: ·)
  | '\\' :: c :: rest => (unescape? rest).map (c :: ·)
  | c :: rest => (unescape? rest).map (c :: ·)

/-- The text that an inside of a string stands for. -/
def stringText? (raw : List UInt8) : Option String :=
  match decodeUtf8 raw with
  | .error _ => none
  | .ok text => (unescape? text.toList).map String.ofList

/-- One character inside a written string. -/
def escapeChar (c : Char) : List Char :=
  if c == '"' then ['\\', '"']
  else if c == '\\' then ['\\', '\\']
  else if c == '\x08' then ['\\', 'b']
  else if c == '\x0c' then ['\\', 'f']
  else if c == '\n' then ['\\', 'n']
  else if c == '\r' then ['\\', 'r']
  else if c == '\t' then ['\\', 't']
  else if c.toNat < 0x20 then ['\\', 'u'] ++ paddedHex 4 c.toNat
  else [c]

def quoted (text : String) : String :=
  String.ofList ('"' :: text.toList.flatMap escapeChar ++ ['"'])

end LiveTables.Text.Json
