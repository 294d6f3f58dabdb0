/-!
# Blank characters

Unicode's White_Space property, and texts with their blank ends cut off.
-/

namespace LiveTables.Text

/-- The characters of Unicode's White_Space property. -/
def isBlank (c : Char) : Bool :=
  let code := c.toNat
  (0x09 ≤ code && code ≤ 0x0d) || code == 0x20 || code == 0x85 || code == 0xa0 || code == 0x1680 ||
    (0x2000 ≤ code && code ≤ 0x200a) || code == 0x2028 || code == 0x2029 || code == 0x202f ||
    code == 0x205f || code == 0x3000

def trimLeft (text : List Char) : List Char := text.dropWhile isBlank

/-- The text up to its last character that fails `drop`. -/
def dropEndWhile (drop : Char → Bool) (text : List Char) : List Char :=
  (text.reverse.dropWhile drop).reverse

def trimRight (text : List Char) : List Char := dropEndWhile isBlank text

def trim (text : List Char) : List Char := trimRight (trimLeft text)

/-- The first word of a text and what follows it, without the blanks around either. -/
def firstWord (text : List Char) : List Char × List Char :=
  let text := trimLeft text
  (text.takeWhile (!isBlank ·), text.dropWhile (!isBlank ·))

end LiveTables.Text
