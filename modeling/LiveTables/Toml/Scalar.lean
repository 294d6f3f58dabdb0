import LiveTables.Number.Binary
import LiveTables.Number.Word
import LiveTables.Toml.Value

/-!
# Unquoted values

Integers of 64 bits in four bases, numbers with a fraction or an exponent, truth values, and points
in time. Digits may be grouped by single underscores.
-/

namespace LiveTables.Toml

open LiveTables.Number

/-- Digits without the underscores between them; each underscore must stand between two digits. -/
def ungroup? (isDigit : Char → Bool) : List Char → Option (List Char)
  | [] => none
  | [c] => if isDigit c then some [c] else none
  | c :: '_' :: rest =>
    if isDigit c then (ungroup? isDigit rest).map (c :: ·) else none
  | c :: rest => if isDigit c then (ungroup? isDigit rest).map (c :: ·) else none

def baseDigit? (base : Nat) (c : Char) : Option Nat :=
  let value :=
    if c.isDigit then c.toNat - 48
    else if c.isAlpha then c.toLower.toNat - 87
    else base
  if value < base then some value else none

def ofBase? (base : Nat) (text : List Char) : Option Int := do
  let digits ← ungroup? (fun c => (baseDigit? base c).isSome) text
  some (digits.foldl (fun value c => base * value + (baseDigit? base c).getD 0) 0 : Nat)

/-- Decimal digits with no zero in front of others. -/
def plainDigits? (text : List Char) : Option (List Char) := do
  let digits ← ungroup? isDigit text
  if digits.length != 1 && digits.head? == some '0' then none else some digits

def readWhole? (text : List Char) : Option Int :=
  match text with
  | '0' :: 'x' :: rest => ofBase? 16 rest
  | '0' :: 'o' :: rest => ofBase? 8 rest
  | '0' :: 'b' :: rest => ofBase? 2 rest
  | _ =>
    let (negative, rest) := readSign text
    (plainDigits? rest).map fun digits => signed negative (digitsValue digits)

/-- Whether a text is a number with a fraction, an exponent or both, and not beyond all numbers. -/
def isFloat (text : List Char) : Bool :=
  let (_, rest) := readSign text
  if rest == "inf".toList || rest == "nan".toList then true
  else
    let whole := rest.takeWhile fun c => isDigit c || c == '_'
    let rest := rest.drop whole.length
    let (fraction, tail) := match rest with
      | '.' :: rest =>
        let fraction := rest.takeWhile fun c => isDigit c || c == '_'
        ((ungroup? isDigit fraction).isSome, rest.drop fraction.length)
      | rest => (!rest.isEmpty, rest)
    let exponent := match tail with
      | [] => true
      | c :: rest =>
        (c == 'e' || c == 'E') && (ungroup? isDigit (readSign rest).2).isSome
    (plainDigits? whole).isSome && fraction && exponent &&
      binary64.read? (text.filter (· != '_')) != some (.infinite false)

def isLeapYear (year : Nat) : Bool := year % 4 == 0 && (year % 100 != 0 || year % 400 == 0)

def daysInMonth (year month : Nat) : Nat :=
  if month == 2 then (if isLeapYear year then 29 else 28)
  else if month == 4 || month == 6 || month == 9 || month == 11 then 30
  else 31

/-- Whether a text is a date: year, month and day. -/
def isDate (text : List Char) : Bool :=
  match text with
  | [y1, y2, y3, y4, '-', m1, m2, '-', d1, d2] =>
    let year := digitsValue [y1, y2, y3, y4]
    let month := digitsValue [m1, m2]
    let day := digitsValue [d1, d2]
    [y1, y2, y3, y4, m1, m2, d1, d2].all isDigit && 1 ≤ month && month ≤ 12 && 1 ≤ day &&
      day ≤ daysInMonth year month
  | _ => false

def isClock (a b c d : Char) : Bool :=
  [a, b, c, d].all isDigit && digitsValue [a, b] ≤ 23 && digitsValue [c, d] ≤ 59

/-- Whether a text is a time of day: hours, minutes, seconds and a fraction. -/
def isTimeOfDay (text : List Char) : Bool :=
  match text with
  | h1 :: h2 :: ':' :: m1 :: m2 :: ':' :: s1 :: s2 :: rest =>
    isClock h1 h2 m1 m2 && [s1, s2].all isDigit && digitsValue [s1, s2] ≤ 60 &&
      (match rest with
        | [] => true
        | '.' :: fraction => !fraction.isEmpty && fraction.all isDigit
        | _ => false)
  | _ => false

/-- The text without the offset from universal time that it may end with. -/
def dropOffset (text : List Char) : List Char :=
  match text.reverse with
  | 'Z' :: rest => rest.reverse
  | 'z' :: rest => rest.reverse
  | m2 :: m1 :: ':' :: h2 :: h1 :: sign :: rest =>
    if (sign == '+' || sign == '-') && isClock h1 h2 m1 m2 then rest.reverse else text
  | _ => text

/-- Whether a text is a date, a time of day, or both with an offset or without one. -/
def isTime (text : List Char) : Bool :=
  isDate text || isTimeOfDay text ||
    (isDate (text.take 10) &&
      match text.drop 10 with
      | separator :: rest =>
        (separator == 'T' || separator == 't' || separator == ' ') && isTimeOfDay (dropOffset rest)
      | [] => false)

def ofScalar? (text : List Char) : Option Value :=
  if text == "true".toList then some (.boolean true)
  else if text == "false".toList then some (.boolean false)
  else match readWhole? text with
    | some n => if isWord n then some (.integer n) else none
    | none =>
      if isFloat text then some .float
      else if isTime text then some .time
      else none

def isScalarChar (c : Char) : Bool :=
  c.isAlphanum || c == '_' || c == '+' || c == '-' || c == '.' || c == ':'

/-- An unquoted text, and what follows it. A date may have a blank between itself and a time. -/
def spanScalar (text : List Char) : List Char × List Char :=
  let word := text.takeWhile isScalarChar
  match isDate word, text.dropWhile isScalarChar with
  | true, ' ' :: c :: rest =>
    if isDigit c then
      (word ++ ' ' :: (c :: rest).takeWhile isScalarChar, (c :: rest).dropWhile isScalarChar)
    else (word, ' ' :: c :: rest)
  | _, rest => (word, rest)

end LiveTables.Toml
