import LiveTables.Number.Shortest
import LiveTables.Text.Escaped

/-!
# Values

What a stored field holds and what a query answers.
-/

namespace LiveTables

inductive Value where
  | null
  | integer (n : Int)
  | real (x : Number.Binary)
  | text (content : String)
  | blob (bytes : List UInt8)
  | boolean (b : Bool)
  deriving DecidableEq, Repr, Inhabited

/-- The kinds of value that a caller can ask for. -/
inductive Kind where
  | integer
  | real
  | text
  deriving DecidableEq, Repr

def Kind.name : Kind → String
  | integer => "integer"
  | real => "real"
  | text => "text"

namespace Value

def render : Value → String
  | null => "NULL"
  | integer n => toString n
  | real x => Number.binary64.render x
  | text content => content
  | blob bytes => "<" ++ toString bytes.length ++ " bytes>"
  | boolean b => if b then "true" else "false"

/-- The value as diagnostics show it: its kind, and what it holds in a form that tells it from every
other value. -/
def diagnostic : Value → String
  | null => "Null"
  | integer n => "Integer(" ++ toString n ++ ")"
  | real x => "Real(" ++ Number.binary64.diagnostic x ++ ")"
  | text content => "Text(" ++ Text.shownText content ++ ")"
  | blob bytes => "Blob([" ++ ", ".intercalate (bytes.map fun b => toString b.toNat) ++ "])"
  | boolean b => "Boolean(" ++ (if b then "true" else "false") ++ ")"

/-- The value as one of the kind asked for. An integer can be asked for as a real number. -/
def readAs? : Kind → Value → Option Value
  | .integer, integer n => some (integer n)
  | .real, real x => some (real x)
  | .real, integer n => some (real (Number.Binary.ofInt n))
  | .text, text content => some (text content)
  | _, _ => none

end Value

end LiveTables
