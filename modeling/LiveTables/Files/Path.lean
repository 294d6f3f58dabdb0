/-!
# Path text

A path is a text of parts between slashes. Empty parts and, except in front, parts that are a single
dot say nothing, so they are passed over at the end of a path.
-/

namespace LiveTables.Files.Path

/-- A path read from its end, without the slashes and single dots there. -/
def trimEnd : List Char → List Char
  | '/' :: c :: rest => trimEnd (c :: rest)
  | '.' :: '/' :: [] => ['/']
  | '.' :: '/' :: rest => trimEnd ('/' :: rest)
  | path => path

/-- The last part of a path and what stands before it, both read from the end. -/
def splitLast (path : String) : List Char × List Char :=
  (trimEnd path.toList.reverse).span (· != '/')

/-- The name of the file that a path leads to, if its last part is a name. -/
def fileName? (path : String) : Option String :=
  let last := (splitLast path).1
  if last.isEmpty || last == ['.'] || last == ['.', '.'] then none
  else some (String.ofList last.reverse)

/-- The path of the directory that the last part stands in, if there is a last part. -/
def parent? (path : String) : Option String :=
  let (last, before) := splitLast path
  if last.isEmpty then none else some (String.ofList (trimEnd before).reverse)

def isAbsolute (path : String) : Bool := path.toList.head? == some '/'

/-- A path taken from another: the path itself if it is absolute. -/
def join (base path : String) : String :=
  if isAbsolute path || base.isEmpty then path
  else if base.toList.getLast? == some '/' then base ++ path
  else base ++ "/" ++ path

/-- The path with another file name in place of its own, or behind it when it has none. -/
def withFileName (path name : String) : String :=
  match fileName? path with
  | some _ => join ((parent? path).getD "") name
  | none => join path name

/-- A text split at its last dot. -/
def splitLastDot (text : String) : Option (String × String) :=
  let (after, before) := text.toList.reverse.span (· != '.')
  match before with
  | [] => none
  | _ :: before => some (String.ofList before.reverse, String.ofList after.reverse)

/-- What follows the last dot of the file name, unless that dot starts the name. -/
def extension? (path : String) : Option String := do
  let (stem, extension) ← splitLastDot (← fileName? path)
  if stem.isEmpty then none else some extension

/-- The parts of a path, empty ones included. -/
def parts (path : String) : List String := (path.toList.splitOn '/').map String.ofList

end LiveTables.Files.Path
