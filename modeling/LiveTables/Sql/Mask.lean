/-!
# Masking query text

A query is a sequence of code, comments, string literals and quoted names. Masking blanks the
comments, the literals and the quotes and leaves everything else where it stands, so the masked text
has as many characters as the query.
-/

namespace LiveTables.Sql

/-- What the text at a position belongs to. -/
inductive Region where
  | code
  | lineComment
  | blockComment
  | literal
  | quoted
  deriving DecidableEq, Repr

/-- Mask a text that starts inside a region. A line comment runs through the next line feed, a block
comment through the next `*/`, and two single quotes inside a literal stand for one. -/
def maskFrom : Region → List Char → List Char
  | _, [] => []
  | .code, '-' :: '-' :: rest => ' ' :: ' ' :: maskFrom .lineComment rest
  | .code, '/' :: '*' :: rest => ' ' :: ' ' :: maskFrom .blockComment rest
  | .code, '\'' :: rest => ' ' :: maskFrom .literal rest
  | .code, '"' :: rest => ' ' :: maskFrom .quoted rest
  | .code, c :: rest => c :: maskFrom .code rest
  | .lineComment, '\n' :: rest => ' ' :: maskFrom .code rest
  | .lineComment, _ :: rest => ' ' :: maskFrom .lineComment rest
  | .blockComment, '*' :: '/' :: rest => ' ' :: ' ' :: maskFrom .code rest
  | .blockComment, _ :: rest => ' ' :: maskFrom .blockComment rest
  | .literal, '\'' :: '\'' :: rest => ' ' :: ' ' :: maskFrom .literal rest
  | .literal, '\'' :: rest => ' ' :: maskFrom .code rest
  | .literal, _ :: rest => ' ' :: maskFrom .literal rest
  | .quoted, '"' :: rest => ' ' :: maskFrom .code rest
  | .quoted, c :: rest => c :: maskFrom .quoted rest

/-- The query with its comments, literals and quotes blanked. -/
def mask (query : String) : String := String.ofList (maskFrom .code query.toList)

end LiveTables.Sql
