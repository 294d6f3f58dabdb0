/-!
# Scanning delimited records

A record is a run of fields, separated by a delimiter byte and ended by a line feed, a carriage
return or the end of the text. A field that starts with a quote runs to the next quote that is not
doubled. Line ends in front of a record are passed over.
-/

namespace LiveTables.Record

def lineFeed : UInt8 := 0x0a

def carriageReturn : UInt8 := 0x0d

def quoteMark : UInt8 := 0x22

/-- Whether a byte ends a record outside quotes. -/
def endsLine (b : UInt8) : Bool := b == lineFeed || b == carriageReturn

/-- Where in a record the scanner stands. -/
inductive Phase where
  | recordStart
  | fieldStart
  | plain
  | quoted
  | quoteSeen
  deriving DecidableEq, Repr

/-- What becomes of one byte: it is passed over or becomes part of the field, and the scan goes on
in another phase; or it ends the field, or the record. -/
inductive Action where
  | pass (next : Phase)
  | take (next : Phase)
  | endField
  | endRecord
  deriving DecidableEq, Repr

def stepInField (delimiter b : UInt8) (next : Phase) : Action :=
  if b == delimiter then .endField
  else if endsLine b then .endRecord
  else .take next

def step (delimiter : UInt8) (phase : Phase) (b : UInt8) : Action :=
  match phase with
  | .recordStart =>
    if endsLine b then .pass .recordStart
    else if b == quoteMark then .pass .quoted
    else stepInField delimiter b .plain
  | .fieldStart =>
    if b == quoteMark then .pass .quoted else stepInField delimiter b .plain
  | .plain => stepInField delimiter b .plain
  | .quoted => if b == quoteMark then .pass .quoteSeen else .take .quoted
  | .quoteSeen =>
    if b == quoteMark then .take .quoted else stepInField delimiter b .plain

/-- How much of a text has been scanned: its bytes, the line reached, counted from one, and the
records. -/
structure Position where
  byte : Nat
  line : Nat
  record : Nat
  deriving DecidableEq, Repr

namespace Position

def start : Position := ⟨0, 1, 0⟩

def after (position : Position) (b : UInt8) : Position :=
  { position with
    byte := position.byte + 1
    line := if b == lineFeed then position.line + 1 else position.line }

def afterRecord (position : Position) : Position :=
  { position with record := position.record + 1 }

end Position

abbrev Fields := List (List UInt8)

/-- Scan to the end of a record of which `fields` and the start `field` have been scanned, both last
first. Gives the record, if one was there, the position behind it and the text that is left. -/
def scan (delimiter : UInt8) (phase : Phase) (field : List UInt8) (fields : Fields)
    (position : Position) : List UInt8 → Option Fields × Position × List UInt8
  | [] => match phase with
    | .recordStart => (none, position, [])
    | _ => (some (field.reverse :: fields).reverse, position.afterRecord, [])
  | b :: rest =>
    let position := position.after b
    match step delimiter phase b with
    | .pass next => scan delimiter next field fields position rest
    | .take next => scan delimiter next (b :: field) fields position rest
    | .endField => scan delimiter .fieldStart [] (field.reverse :: fields) position rest
    | .endRecord => (some (field.reverse :: fields).reverse, position.afterRecord, rest)

theorem length_scan_le (delimiter : UInt8) (phase : Phase) (field : List UInt8) (fields : Fields)
    (position : Position) (text : List UInt8) :
    (scan delimiter phase field fields position text).2.2.length ≤ text.length := by
  induction text generalizing phase field fields position with
  | nil => cases phase <;> simp [scan]
  | cons b rest ih =>
    unfold scan
    split
    · exact Nat.le_succ_of_le (ih ..)
    · exact Nat.le_succ_of_le (ih ..)
    · exact Nat.le_succ_of_le (ih ..)
    · exact Nat.le_succ _

theorem length_scan_lt {delimiter : UInt8} {position : Position} {text : List UInt8}
    {fields : Fields}
    (h : (scan delimiter .recordStart [] [] position text).1 = some fields) :
    (scan delimiter .recordStart [] [] position text).2.2.length < text.length := by
  cases text with
  | nil => simp [scan] at h
  | cons b rest =>
    unfold scan
    split
    · exact Nat.lt_succ_of_le (length_scan_le ..)
    · exact Nat.lt_succ_of_le (length_scan_le ..)
    · exact Nat.lt_succ_of_le (length_scan_le ..)
    · exact Nat.lt_succ_self _

/-- A record and the position where the scan for it began. -/
structure Scanned where
  position : Position
  fields : Fields
  deriving DecidableEq, Repr

/-- The records of a text that starts at a position. -/
def recordsFrom (delimiter : UInt8) (position : Position) (text : List UInt8) : List Scanned :=
  match _h : scan delimiter .recordStart [] [] position text with
  | (none, _, _) => []
  | (some fields, next, rest) => ⟨position, fields⟩ :: recordsFrom delimiter next rest
termination_by text.length
decreasing_by
  have := @length_scan_lt delimiter position text fields (by rw [_h])
  rw [_h] at this
  exact this

/-- The records of a text. The three bytes that mark a text as UTF-8 belong to no field. -/
def records (delimiter : UInt8) (text : List UInt8) : List Scanned :=
  match text with
  | 0xef :: 0xbb :: 0xbf :: rest => match recordsFrom delimiter ⟨3, 1, 0⟩ rest with
    | [] => []
    | first :: more => { first with position := .start } :: more
  | text => recordsFrom delimiter .start text

end LiveTables.Record
