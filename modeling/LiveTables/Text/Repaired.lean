import LiveTables.Text.Utf8

/-!
# Bytes as text, whatever they are

Bytes that need not be UTF-8 are read as a text in which one replacement character stands for each
ill-formed sequence. Such a sequence is what a well-formed one could start with, up to the byte that
it cannot go on with, or a single byte that starts none.
-/

namespace LiveTables.Text

def replacement : Char := '\ufffd'

/-- Whether a sequence of three bytes can start with two. -/
def startsThree (a b : UInt8) : Bool :=
  0xe0 ≤ a && a ≤ 0xef && isContinuation b && (a != 0xe0 || 0xa0 ≤ b) && (a != 0xed || b ≤ 0x9f)

/-- Whether a sequence of four bytes can start with two. -/
def startsFour (a b : UInt8) : Bool :=
  0xf0 ≤ a && a ≤ 0xf4 && isContinuation b && (a != 0xf0 || 0x90 ≤ b) && (a != 0xf4 || b ≤ 0x8f)

/-- The number of bytes of the ill-formed sequence that a text starts with. -/
def brokenLength : List UInt8 → Nat
  | a :: b :: rest =>
    if startsThree a b then 2
    else if startsFour a b then
      match rest with
      | c :: _ => if isContinuation c then 3 else 2
      | [] => 2
    else 1
  | _ => 1

theorem brokenLength_pos (bytes : List UInt8) : 0 < brokenLength bytes := by
  unfold brokenLength
  split
  · split
    · decide
    · split
      · split
        · split <;> decide
        · decide
      · decide
  · decide

/-- The characters that bytes spell, with a replacement for each ill-formed sequence. -/
def repairFrom (bytes : List UInt8) : List Char :=
  match _h : decodeFirst bytes with
  | some (c, size) => c :: repairFrom (bytes.drop size)
  | none =>
    if bytes.isEmpty then [] else replacement :: repairFrom (bytes.drop (brokenLength bytes))
termination_by bytes.length
decreasing_by
  · have := length_pos_of_decodeFirst _h
    simp only [List.length_drop]
    omega
  · have := brokenLength_pos bytes
    rename_i hempty
    have : bytes.length ≠ 0 := fun h => hempty (by simp [List.eq_nil_of_length_eq_zero h])
    simp only [List.length_drop]
    omega

/-- The text that bytes spell in UTF-8, made whole where they are not UTF-8. -/
def repairUtf8 (bytes : List UInt8) : String := String.ofList (repairFrom bytes)

end LiveTables.Text
