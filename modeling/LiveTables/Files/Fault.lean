/-!
# File faults

Why the file system refuses an operation, in the words and with the number that it reports.
-/

namespace LiveTables.Files

inductive Fault where
  | notFound
  | «exists»
  | notDirectory
  | isDirectory
  | nameTooLong
  | tooManyLinks
  | notUtf8
  | other (message : String)
  deriving DecidableEq, Repr

namespace Fault

/-- A reported fault: its text and its number. -/
def numbered (text : String) (number : Nat) : String :=
  text ++ " (os error " ++ toString number ++ ")"

def message : Fault → String
  | notFound => numbered "No such file or directory" 2
  | «exists» => numbered "File exists" 17
  | notDirectory => numbered "Not a directory" 20
  | isDirectory => numbered "Is a directory" 21
  | nameTooLong => numbered "File name too long" 36
  | tooManyLinks => numbered "Too many levels of symbolic links" 40
  | notUtf8 => "stream did not contain valid UTF-8"
  | other message => message

end Fault

end LiveTables.Files
