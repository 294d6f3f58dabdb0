import LiveTables.Sql.Mask
import LiveTables.Text.Word

/-!
# Identifiers in query text

How a name is written as an identifier, and which words a query consists of once it is masked.
-/

namespace LiveTables.Sql

open LiveTables.Text

def doubleQuotes : List Char → List Char
  | [] => []
  | c :: rest => if c = '"' then '"' :: '"' :: doubleQuotes rest else c :: doubleQuotes rest

/-- A name between double quotes, with the double quotes inside it written twice. -/
def quote (name : String) : String := String.ofList ('"' :: doubleQuotes name.toList ++ ['"'])

/-- The longest runs of word characters in a text that follows the unfinished run `current`. -/
def wordsFrom (current : List Char) : List Char → List (List Char)
  | [] => if current.isEmpty then [] else [current.reverse]
  | c :: rest =>
    if isWordChar c then wordsFrom (c :: current) rest
    else if current.isEmpty then wordsFrom [] rest
    else current.reverse :: wordsFrom [] rest

/-- The longest runs of word characters in a text. -/
def words (text : List Char) : List (List Char) := wordsFrom [] text

/-- Put a name into an ascending list, once. -/
def insertName (name : String) : List String → List String
  | [] => [name]
  | head :: rest =>
    if name < head then name :: head :: rest
    else if head < name then head :: insertName name rest
    else head :: rest

/-- Names in ascending order, each once. -/
def nameSet (names : List String) : List String := names.foldr insertName []

/-- The words of a query outside its literals and comments, in lower case. -/
def identifierWords (query : String) : List String :=
  nameSet ((words (mask query).toList).map fun word => lower (String.ofList word))

end LiveTables.Sql
