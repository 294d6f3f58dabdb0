/-!
# Integers of a fixed width

Which integers fit the widths that fields and stored values have, and how a product is held at the
end of the range that it would leave.
-/

namespace LiveTables.Number

def wordMin : Int := -9223372036854775808

def wordMax : Int := 9223372036854775807

def isWord (n : Int) : Bool := wordMin ≤ n && n ≤ wordMax

/-- The integer of 64 bits nearest to a number. -/
def clampWord (n : Int) : Int := max wordMin (min wordMax n)

end LiveTables.Number
