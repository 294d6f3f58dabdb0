import LiveTables.Number.Word
import LiveTables.Sql.Statement
import LiveTables.Text.Blank
import LiveTables.Value

/-!
# Fields and their column types

A field is the text between two delimiters. A sample field gives its column a type: integer if it
reads as one, else real, else text. Fields under a typed column are converted to the type or
refused; blank fields in numeric columns are missing values.
-/

namespace LiveTables

/-- The type of a column that holds fields. -/
inductive ColumnType where
  | integer
  | real
  | text
  deriving DecidableEq, Repr

namespace ColumnType

def name : ColumnType → String
  | integer => "integer"
  | real => "real"
  | text => "text"

def sqlType : ColumnType → Sql.SqlType
  | integer => .bigint
  | real => .double
  | text => .varchar

/-- The whole number that a field spells, with blanks around it allowed. -/
def readWord? (field : String) : Option Int :=
  (Number.readInteger? (Text.trim field.toList)).filter Number.isWord

/-- The finite number that a field spells, with blanks around it allowed. -/
def readReal? (field : String) : Option Number.Binary :=
  (Number.binary64.read? (Text.trim field.toList)).filter Number.Binary.isFinite

def isBlankField (field : String) : Bool := field.toList.all Text.isBlank

/-- The value that a field has in a column of a type, if it fits there. -/
def coerce (type : ColumnType) (field : String) : Option Value :=
  match type with
  | text => some (.text field)
  | integer => if isBlankField field then some .null else (readWord? field).map .integer
  | real => if isBlankField field then some .null else (readReal? field).map .real

/-- The first type, of integer, real and text, that a sample field reads as. -/
def infer (field : String) : ColumnType :=
  if (readWord? field).isSome then integer
  else if (readReal? field).isSome then real
  else text

end ColumnType

end LiveTables
