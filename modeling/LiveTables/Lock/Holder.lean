import LiveTables.Text.Json

/-!
# Who holds a lock

The record of a lock's holder: its process number and the time it took the lock, as one JSON object
in the lock file.
-/

namespace LiveTables.Lock

open LiveTables.Number LiveTables.Text

structure Holder where
  process : Nat
  since : String
  deriving DecidableEq, Repr

namespace Holder

def render (holder : Holder) : String :=
  "pid " ++ toString holder.process ++ " (since " ++ holder.since ++ ")"

/-- The record that a holder leaves in the lock file. -/
def toJson (holder : Holder) : String :=
  "\x7b\"pid\":" ++ toString holder.process ++ ",\"acquired_at\":" ++ Json.quoted holder.since ++
    "\x7d"

def ofNumber? (text : List Char) : Option Nat :=
  if text.all isDigit && digitsValue text < 4294967296 then some (digitsValue text) else none

def process? : Json.Value → Option Nat
  | .number text => ofNumber? text
  | _ => none

def since? : Json.Value → Option String
  | .string raw => Json.stringText? raw
  | _ => none

/-- The two fields read so far; each may come once. -/
structure Partial where
  process : Option Nat
  since : Option String

/-- Read one field of the record. Fields of other names are passed over. -/
def Partial.add (found : Partial) (name : List UInt8) (value : Json.Value) : Option Partial := do
  let name ← Json.stringText? name
  if name == "pid" then
    if found.process.isSome then none else some { found with process := some (← process? value) }
  else if name == "acquired_at" then
    if found.since.isSome then none else some { found with since := some (← since? value) }
  else some found

/-- The holder that a value describes, by name or by position. -/
def ofValue? : Json.Value → Option Holder
  | .object fields => do
    let found ← fields.foldlM (fun (found : Partial) field => found.add field.1 field.2)
      ⟨none, none⟩
    some ⟨← found.process, ← found.since⟩
  | .array [process, since] => do some ⟨← process? process, ← since? since⟩
  | _ => none

def ofBytes? (content : List UInt8) : Option Holder := do ofValue? (← Json.read? content)

end Holder

end LiveTables.Lock
