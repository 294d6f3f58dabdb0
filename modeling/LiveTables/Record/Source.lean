import LiveTables.Files.Tree
import LiveTables.Record.Scan
import LiveTables.Text.Utf8

/-!
# Data rows of a file

The records of a file as rows of text, the header record left out. A record that is not UTF-8 is a
fault in its place; the rows behind it are read all the same.
-/

namespace LiveTables.Record

open LiveTables.Text

/-- A data row and the line of the file on which the scan for it began. -/
structure Row where
  line : Nat
  fields : List String
  deriving DecidableEq, Repr

/-- What can be wrong with a row: bytes of a field are not UTF-8 from an offset on, or the file
cannot be read. -/
inductive Fault where
  | notUtf8 (position : Position) (field offset : Nat)
  | unreadable (fault : Files.Fault)
  deriving DecidableEq, Repr

def Fault.message : Fault → String
  | notUtf8 position field offset =>
    "CSV parse error: record " ++ toString position.record ++ " (line " ++ toString position.line ++
      ", field: " ++ toString field ++ ", byte: " ++ toString position.byte ++
      "): invalid utf-8: invalid UTF-8 in field " ++ toString field ++ " near byte index " ++
      toString offset
  | unreadable fault => fault.message

/-- The fields of a record as text, or the number and offset of the first that is not UTF-8. -/
def decodeFields (index : Nat) : Fields → Except (Nat × Nat) (List String)
  | [] => .ok []
  | field :: rest => match decodeUtf8 field with
    | .error offset => .error (index, offset)
    | .ok text => (decodeFields (index + 1) rest).map (text :: ·)

/-- The row that a record is; `before` is the position that a fault of it names. -/
def decodeRow (before : Position) (record : Scanned) : Except Fault Row :=
  match decodeFields 0 record.fields with
  | .ok fields => .ok ⟨record.position.line, fields⟩
  | .error (field, offset) => .error (.notUtf8 before field offset)

/-- How the files of a directory are read. -/
structure Format where
  delimiter : UInt8
  hasHeader : Bool
  deriving DecidableEq, Repr

namespace Format

/-- The data rows of a text. A fault of the first one names the position before the header. -/
def rows (format : Format) (text : List UInt8) : List (Except Fault Row) :=
  let records := records format.delimiter text
  if format.hasHeader then
    match records with
    | header :: first :: more =>
      decodeRow header.position first ::
        more.map fun record => decodeRow record.position record
    | _ => []
  else records.map fun record => decodeRow record.position record

/-- The data rows of the file at a path, if the path leads anywhere. -/
def openRows (format : Format) (tree : Files.Tree) (path : String) :
    Except Files.Fault (List (Except Fault Row)) :=
  match tree.stat path with
  | .error fault => .error fault
  | .ok (.file _ content _) => .ok (format.rows content)
  | .ok _ => .ok [.error (.unreadable .isDirectory)]

end Format

end LiveTables.Record
