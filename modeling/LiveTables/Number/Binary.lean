import LiveTables.Number.Decimal

/-!
# Binary floating point

A floating point number is a sign, a significand and a power of two, or an infinity, or not a
number. A format says how many bits a significand may have and how far the power of two may go;
rounding takes a fraction to the nearest number of a format, at halves to the one with the even
significand.
-/

namespace LiveTables.Number

/-- A binary interchange format: the bits of a significand, the exponent of its least subnormal
number, and the exponent of its greatest. -/
structure Format where
  precision : Nat
  leastExponent : Int
  greatestExponent : Int

def binary64 : Format := ⟨53, -1074, 971⟩

def binary32 : Format := ⟨24, -149, 104⟩

/-- A floating point number: `finite` stands for `significand` times two to the `exponent`. -/
inductive Binary where
  | nan
  | infinite (negative : Bool)
  | finite (negative : Bool) (significand : Nat) (exponent : Int)
  deriving DecidableEq, Repr, Inhabited

namespace Binary

def isFinite : Binary → Bool
  | finite .. => true
  | _ => false

end Binary

/-- The greatest `e` with two to the `e` at most the fraction, which must be positive. -/
def floorLog (numerator denominator : Nat) : Int :=
  let guess : Int := (numerator.log2 : Int) - denominator.log2
  let fits : Bool := match guess with
    | .ofNat up => denominator * Nat.pow 2 up ≤ numerator
    | .negSucc down => denominator ≤ numerator * Nat.pow 2 (down + 1)
  if fits then guess else guess - 1

/-- The number of the format that is nearest to a fraction. -/
def Format.round (format : Format) (negative : Bool) (numerator denominator : Nat) : Binary :=
  if numerator == 0 then .finite negative 0 format.leastExponent
  else
    let exponent := max format.leastExponent
      (floorLog numerator denominator - (format.precision - 1 : Nat))
    let significand := match exponent with
      | .ofNat up => divideToEven numerator (denominator * Nat.pow 2 up)
      | .negSucc down => divideToEven (numerator * Nat.pow 2 (down + 1)) denominator
    let (significand, exponent) :=
      if significand == Nat.pow 2 format.precision then
        (Nat.pow 2 (format.precision - 1), exponent + 1)
      else (significand, exponent)
    if format.greatestExponent < exponent then .infinite negative
    else .finite negative significand exponent

/-- The number of the 64-bit format nearest to a whole number. -/
def Binary.ofInt (n : Int) : Binary := binary64.round (n < 0) n.natAbs 1

/-- Powers of ten outside these bounds leave the range of every format, with any coefficient of the
number of digits that is added to them. -/
def decimalLimit : Int := 400

/-- The number of the format that is nearest to a decimal. -/
def Format.ofDecimal (format : Format) (decimal : Decimal) : Binary :=
  let magnitude := decimal.exponent + (toString decimal.coefficient).length
  if decimal.coefficient == 0 || magnitude < -decimalLimit then
    .finite decimal.negative 0 format.leastExponent
  else if decimalLimit < magnitude then .infinite decimal.negative
  else match decimal.exponent with
    | .ofNat up => format.round decimal.negative (decimal.coefficient * Nat.pow 10 up) 1
    | .negSucc down => format.round decimal.negative decimal.coefficient (Nat.pow 10 (down + 1))

def asciiLowerIs (text : List Char) (word : String) : Bool := text.map Char.toLower == word.toList

/-- A number of the format as text: a decimal, or an infinity or not-a-number in any letter case,
each after an optional sign. -/
def Format.read? (format : Format) (text : List Char) : Option Binary :=
  match readDecimal? text with
  | some decimal => some (format.ofDecimal decimal)
  | none =>
    let (negative, word) := readSign text
    if asciiLowerIs word "inf" || asciiLowerIs word "infinity" then some (.infinite negative)
    else if asciiLowerIs word "nan" then some .nan
    else none

/-- A number of a narrower format as one of the 64-bit format: the same value. -/
def Binary.widen : Binary → Binary
  | nan => nan
  | infinite negative => infinite negative
  | finite negative significand exponent => match exponent with
    | .ofNat up => binary64.round negative (significand * Nat.pow 2 up) 1
    | .negSucc down => binary64.round negative significand (Nat.pow 2 (down + 1))

/-- The magnitude of a finite number as a fraction. -/
def Binary.toFraction : Binary → Nat × Nat
  | nan | infinite _ => (0, 1)
  | finite _ significand exponent => match exponent with
    | .ofNat up => (significand * Nat.pow 2 up, 1)
    | .negSucc down => (significand, Nat.pow 2 (down + 1))

/-- The magnitude of a finite number with a fixed number of places, which must not be zero. -/
def Binary.fixedText (x : Binary) (places : Nat) : String :=
  let (numerator, denominator) := x.toFraction
  let units := divideToEven (numerator * Nat.pow 10 places) denominator
  toString (units / Nat.pow 10 places) ++ "." ++ padded places (units % Nat.pow 10 places)

end LiveTables.Number
