/-!
# ASCII words

Names are compared without ASCII letter case, and made of the characters `[A-Za-z0-9_]`.
-/

namespace LiveTables.Text

/-- The characters that names and words are made of. -/
def isWordChar (c : Char) : Bool := c.isAlphanum || c == '_'

/-- The text with its ASCII letters in lower case. -/
def lower (text : String) : String := String.ofList (text.toList.map Char.toLower)

def equalIgnoringCase (left right : String) : Bool := lower left == lower right

end LiveTables.Text
