import LiveTables.Sql.Identifier
import LiveTables.Sql.Statement

/-!
# Statement text

The statements that tables are made and filled with, as the text that the store is given.
-/

namespace LiveTables.Sql

def placeholderRow (width : Nat) : String :=
  "(" ++ ", ".intercalate (List.replicate width "?") ++ ")"

/-- `height` rows of `width` placeholders. -/
def placeholders (width height : Nat) : String :=
  ", ".intercalate (List.replicate height (placeholderRow width))

def dropText (table : String) : String := "DROP TABLE IF EXISTS " ++ quote table

def columnText (column : String × SqlType) : String := quote column.1 ++ " " ++ column.2.keyword

def createText (table : String) (columns : List (String × SqlType)) : String :=
  "CREATE TABLE " ++ quote table ++ " (" ++ ", ".intercalate (columns.map columnText) ++ ")"

/-- An insert of `height` rows of `width` bound values, by position. -/
def insertText (table : String) (width height : Nat) : String :=
  "INSERT INTO " ++ quote table ++ " VALUES " ++ placeholders width height

/-- An insert of `height` rows of bound values into named columns. -/
def insertIntoText (table : String) (columns : List String) (height : Nat) : String :=
  "INSERT INTO " ++ quote table ++ " (" ++ ", ".intercalate (columns.map quote) ++ ") VALUES " ++
    placeholders columns.length height

end LiveTables.Sql
