/-!
# Decimal numerals

Runs of ASCII digits and their values, and the decimal forms that are made of them: signed integers
and numbers with a fraction and an exponent. Reading takes the whole text or nothing.
-/

namespace LiveTables.Number

def isDigit (c : Char) : Bool := '0' ≤ c && c ≤ '9'

def digitValue (c : Char) : Nat := c.toNat - 48

def digitsValue (digits : List Char) : Nat :=
  digits.foldl (fun value c => 10 * value + digitValue c) 0

/-- The longest run of digits at the start, and the rest. -/
def spanDigits (text : List Char) : List Char × List Char :=
  (text.takeWhile isDigit, text.dropWhile isDigit)

/-- Whether a sign in front is a minus, and what follows the sign. -/
def readSign : List Char → Bool × List Char
  | '-' :: rest => (true, rest)
  | '+' :: rest => (false, rest)
  | text => (false, text)

def signed (negative : Bool) (magnitude : Nat) : Int :=
  if negative then -(magnitude : Int) else magnitude

/-- An optional sign and one or more digits. -/
def readInteger? (text : List Char) : Option Int :=
  let (negative, digits) := readSign text
  if digits.isEmpty || !digits.all isDigit then none
  else some (signed negative (digitsValue digits))

/-- `coefficient` times ten to the `exponent`, with a sign that zero keeps. -/
structure Decimal where
  negative : Bool
  coefficient : Nat
  exponent : Int
  deriving DecidableEq, Repr

/-- The exponent part: nothing, or `e` and a signed run of digits. -/
def readExponent? : List Char → Option Int
  | [] => some 0
  | c :: rest => if c == 'e' || c == 'E' then readInteger? rest else none

/-- Digits with an optional point among or around them, at least one digit in all, and an optional
exponent. -/
def readUnsigned? (text : List Char) : Option (Nat × Int) :=
  let (whole, rest) := spanDigits text
  let (fraction, rest) := match rest with
    | '.' :: rest => spanDigits rest
    | rest => ([], rest)
  if whole.isEmpty && fraction.isEmpty then none
  else (readExponent? rest).map fun exponent =>
    (digitsValue (whole ++ fraction), exponent - fraction.length)

def readDecimal? (text : List Char) : Option Decimal :=
  let (negative, rest) := readSign text
  (readUnsigned? rest).map fun value => ⟨negative, value.1, value.2⟩

/-- A number of at least `width` digits, filled up with zeros. -/
def padded (width n : Nat) : String :=
  let digits := toString n
  String.ofList (List.replicate (width - digits.length) '0') ++ digits

/-- The quotient of two numbers, rounded to the nearest whole number and at halves to the even
one. -/
def divideToEven (numerator denominator : Nat) : Nat :=
  let quotient := numerator / denominator
  let twice := 2 * (numerator % denominator)
  if denominator < twice || (twice == denominator && quotient % 2 == 1) then quotient + 1
  else quotient

end LiveTables.Number
