import LiveTables.Number.Word
import LiveTables.Time.Calendar
import LiveTables.Value

/-!
# What a query can answer

Queries answer with more kinds of data than fields have. A datum that a value can hold becomes that
value; any other becomes its text, in which nested data have the text of their parts.
-/

namespace LiveTables.Engine

open LiveTables.Number LiveTables.Time

/-- The unit that a moment or a time of day is counted in. -/
inductive TimeUnit where
  | second
  | millisecond
  | microsecond
  | nanosecond
  deriving DecidableEq, Repr

/-- A count of a unit in microseconds. Larger units stop at the ends of the 64-bit range, and
nanoseconds lose what is left of a microsecond. -/
def TimeUnit.toMicros : TimeUnit → Int → Int
  | second, count => clampWord (count * 1000000)
  | millisecond, count => clampWord (count * 1000)
  | microsecond, count => count
  | nanosecond, count => count.tdiv 1000

/-- One datum of an answer. A `fixed` datum is a whole number with its point moved to the left. -/
inductive Datum where
  | null
  | boolean (b : Bool)
  | integer (n : Int)
  | single (x : Binary)
  | double (x : Binary)
  | fixed (unscaled : Int) (scale : Nat)
  | text (content : String)
  | enumerated (label : String)
  | blob (bytes : List UInt8)
  | moment (unit : TimeUnit) (count : Int)
  | timeOfDay (unit : TimeUnit) (count : Int)
  | day (count : Int)
  | span (months days nanos : Int)
  | list (items : List Datum)
  | record (fields : List (String × Datum))
  | map (entries : List (Datum × Datum))
  | tagged (inner : Datum)
  deriving Repr, Inhabited

/-- A whole number with its point moved `scale` places to the left. -/
def fixedText (unscaled : Int) (scale : Nat) : String :=
  let digits := (padded (scale + 1) unscaled.natAbs).toList
  let whole := digits.take (digits.length - scale)
  let fraction := digits.drop (digits.length - scale)
  (if unscaled < 0 then "-" else "") ++ String.ofList whole ++
    (if scale == 0 then "" else "." ++ String.ofList fraction)

/-- The number of the 64-bit format nearest to a fixed-point number. -/
def fixedReal (unscaled : Int) (scale : Nat) : Binary :=
  binary64.round (unscaled < 0) unscaled.natAbs (Nat.pow 10 scale)

/-- A fixed-point number and its number of places, from its text. -/
def readFixed? (text : String) : Option (Int × Nat) := do
  let (negative, rest) := readSign text.toList
  let (whole, rest) := spanDigits rest
  let fraction ← match rest with
    | [] => some []
    | '.' :: fraction => if fraction.all isDigit then some fraction else none
    | _ => none
  if whole.isEmpty && fraction.isEmpty then none
  else some (signed negative (digitsValue (whole ++ fraction)), fraction.length)

mutual

/-- The text of a datum, alone or as a part of another. -/
def Datum.render : Datum → String
  | .null => "NULL"
  | .boolean b => if b then "true" else "false"
  | .integer n => toString n
  | .single x => binary32.render x
  | .double x => binary64.render x
  | .fixed unscaled scale => fixedText unscaled scale
  | .text content => content
  | .enumerated label => label
  | .blob bytes => "<" ++ toString bytes.length ++ " bytes>"
  | .moment unit count => momentText (unit.toMicros count)
  | .timeOfDay unit count => timeOfDayText (unit.toMicros count)
  | .day count => dayText count
  | .span months days nanos => spanText months days nanos
  | .list items => "[" ++ ", ".intercalate (Datum.renderItems items) ++ "]"
  | .record fields => "\x7b" ++ ", ".intercalate (Datum.renderFields fields) ++ "\x7d"
  | .map entries => "\x7b" ++ ", ".intercalate (Datum.renderEntries entries) ++ "\x7d"
  | .tagged inner => inner.render

def Datum.renderItems : List Datum → List String
  | [] => []
  | item :: rest => item.render :: Datum.renderItems rest

def Datum.renderFields : List (String × Datum) → List String
  | [] => []
  | (name, field) :: rest =>
    ("'" ++ name ++ "': " ++ field.render) :: Datum.renderFields rest

def Datum.renderEntries : List (Datum × Datum) → List String
  | [] => []
  | (key, value) :: rest => (key.render ++ "=" ++ value.render) :: Datum.renderEntries rest

end

def Datum.toValue : Datum → Value
  | null => .null
  | boolean b => .boolean b
  | integer n => if isWord n then .integer n else .text (toString n)
  | single x => .real x.widen
  | double x => .real x
  | fixed unscaled scale => .real (fixedReal unscaled scale)
  | text content => .text content
  | enumerated label => .text label
  | blob bytes => .blob bytes
  | tagged inner => inner.toValue
  | datum => .text datum.render

end LiveTables.Engine
