import LiveTables.Number.Binary

/-!
# The shortest decimal of a binary number

A finite number is shown with the fewest digits that read back as it, and of those with the digits
nearest to it. The decimals that read back as a number are those between the midpoints to its two
neighbours, the midpoints included when the significand is even. On the grid of decimals with a
given number of digits only the two points around the number can be the nearest, so those are tried.
-/

namespace LiveTables.Number

/-- The bounds of the decimals that read back as a number, and the number itself, all three over one
denominator; `closed` says whether the bounds themselves read back. -/
structure Interval where
  low : Nat
  value : Nat
  high : Nat
  denominator : Nat
  closed : Bool

/-- The interval of a positive number of the format. The neighbour below a power of two is half as
far away as the one above. -/
def Format.interval (format : Format) (significand : Nat) (exponent : Int) : Interval :=
  let narrow := significand == Nat.pow 2 (format.precision - 1) && format.leastExponent < exponent
  let below := if narrow then 1 else 2
  let scale (n : Nat) : Nat := match exponent with
    | .ofNat up => n * Nat.pow 2 up
    | .negSucc _ => n
  { low := scale (4 * significand - below)
    value := scale (4 * significand)
    high := scale (4 * significand + 2)
    denominator := 4 * match exponent with
      | .ofNat _ => 1
      | .negSucc down => Nat.pow 2 (down + 1)
    closed := significand % 2 == 0 }

def Interval.contains (interval : Interval) (numerator denominator : Nat) : Bool :=
  let low := interval.low * denominator
  let high := interval.high * denominator
  let point := numerator * interval.denominator
  if interval.closed then low ≤ point && point ≤ high else low < point && point < high

/-- The exponent of the leading digit of a positive fraction, found from below. -/
def leadingPower (numerator denominator : Nat) : Int :=
  let guess : Int := (numerator.log2 : Int) - denominator.log2
  let low : Int := (guess - 1) * 30103 / 100000 - 1
  let atLeast (power : Int) : Bool := match power with
    | .ofNat up => denominator * Nat.pow 10 up ≤ numerator
    | .negSucc down => denominator ≤ numerator * Nat.pow 10 (down + 1)
  if atLeast (low + 3) then low + 3
  else if atLeast (low + 2) then low + 2
  else if atLeast (low + 1) then low + 1
  else low

/-- The point of the decimal grid of step ten to the `power` that stands for the interval: the
nearer of the two grid points around the value that lie in it, the greater one when they are equally
near. -/
def Interval.pointOnGrid (interval : Interval) (power : Int) : Option Nat :=
  let up := power.toNat
  let down := (-power).toNat
  let numerator := interval.value * Nat.pow 10 down
  let denominator := interval.denominator * Nat.pow 10 up
  let below := numerator / denominator
  let remainder := numerator % denominator
  let inside (point : Nat) : Bool := interval.contains (point * Nat.pow 10 up) (Nat.pow 10 down)
  match inside below, inside (below + 1) with
  | true, true => some (if denominator ≤ 2 * remainder then below + 1 else below)
  | true, false => some below
  | false, true => some (below + 1)
  | false, false => none

/-- Digits without their trailing zeros, and the power of ten of the last digit that is left. -/
def dropZeros (digits : List Char) (power : Int) : List Char × Int :=
  let zeros := (digits.reverse.takeWhile (· == '0')).length
  (digits.take (digits.length - zeros), power + zeros)

/-- The shortest digits of a positive number of the format, and the power of ten of the last one. -/
def Format.shortest (format : Format) (significand : Nat) (exponent : Int) : List Char × Int :=
  let interval := format.interval significand exponent
  let leading := leadingPower interval.value interval.denominator
  let hit := (List.range 17).findSome? fun (more : Nat) =>
    let power : Int := leading - (more : Nat)
    (interval.pointOnGrid power).map fun point => (point, power)
  let (point, power) := hit.getD (interval.value / interval.denominator, 0)
  dropZeros (Nat.toDigits 10 point) power

/-- Digits in positional notation; `whole` puts a point and a zero behind a whole number. -/
def positional (whole : Bool) (digits : List Char) (power : Int) : List Char :=
  match power with
  | .ofNat up => digits ++ List.replicate up '0' ++ (if whole then ['.', '0'] else [])
  | .negSucc down =>
    let places := down + 1
    if digits.length ≤ places then
      ['0', '.'] ++ List.replicate (places - digits.length) '0' ++ digits
    else digits.take (digits.length - places) ++ ['.'] ++ digits.drop (digits.length - places)

/-- Digits with a point behind the first and an exponent. -/
def scientific (digits : List Char) (power : Int) : List Char :=
  let exponent := power + digits.length - 1
  let fraction := digits.drop 1
  digits.take 1 ++ (if fraction.isEmpty then [] else '.' :: fraction) ++ ['e'] ++
    (toString exponent).toList

def withSign (negative : Bool) (text : List Char) : String :=
  String.ofList (if negative then '-' :: text else text)

/-- A number as results show it: always positional, and a whole number without a point. -/
def Format.render (format : Format) : Binary → String
  | .nan => "NaN"
  | .infinite negative => withSign negative "inf".toList
  | .finite negative significand exponent =>
    if significand == 0 then withSign negative ['0']
    else
      let (digits, power) := format.shortest significand exponent
      withSign negative (positional false digits power)

/-- A number as diagnostics show it: with a fraction, and with an exponent below `1e-4` and from
`1e16` on. -/
def Format.diagnostic (format : Format) : Binary → String
  | .nan => "NaN"
  | .infinite negative => withSign negative "inf".toList
  | .finite negative significand exponent =>
    if significand == 0 then withSign negative ['0', '.', '0']
    else
      let (digits, power) := format.shortest significand exponent
      let leading := power + digits.length - 1
      if -4 ≤ leading && leading < 16 then withSign negative (positional true digits power)
      else withSign negative (scientific digits power)

end LiveTables.Number
