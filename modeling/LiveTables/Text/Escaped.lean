import LiveTables.Text.Unprintable

/-!
# Text in diagnostics

A character or a text is shown between quotes, with its own kind of quote, backslashes and
characters that do not print escaped.
-/

namespace LiveTables.Text

def hexDigit (n : Nat) : Char := if n < 10 then Char.ofNat (48 + n) else Char.ofNat (87 + n)

/-- The digits of `n` in base 16, without leading zeros. -/
def hexDigits (n : Nat) : List Char := (Nat.toDigits 16 n)

/-- `n` in base 16 with at least `width` digits. -/
def paddedHex (width n : Nat) : List Char :=
  let digits := hexDigits n
  List.replicate (width - digits.length) '0' ++ digits

/-- One character between quotes of the kind `quote`. -/
def escapedChar (quote c : Char) : List Char :=
  if c == '\x00' then ['\\', '0']
  else if c == '\t' then ['\\', 't']
  else if c == '\r' then ['\\', 'r']
  else if c == '\n' then ['\\', 'n']
  else if c == quote || c == '\\' then ['\\', c]
  else if isPrintable c then [c]
  else ['\\', 'u', '\x7b'] ++ hexDigits c.toNat ++ ['\x7d']

def shownText (text : String) : String :=
  String.ofList ('"' :: text.toList.flatMap (escapedChar '"') ++ ['"'])

def shownChar (c : Char) : String := String.ofList ('\'' :: escapedChar '\'' c ++ ['\''])

end LiveTables.Text
