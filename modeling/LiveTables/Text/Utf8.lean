/-!
# Reading UTF-8

Bytes read as characters. A text that is not UTF-8 is refused at the first byte of its first
ill-formed sequence: sequences must be of the shortest form, complete, and outside the surrogates.
-/

namespace LiveTables.Text

def isContinuation (b : UInt8) : Bool := 0x80 ≤ b && b ≤ 0xbf

/-- The value of the low six bits that a continuation byte carries. -/
def continuationBits (b : UInt8) : Nat := b.toNat % 64

/-- The character that a byte sequence starts with, and the number of its bytes. -/
def decodeFirst : List UInt8 → Option (Char × Nat)
  | [] => none
  | a :: rest =>
    if a < 0x80 then some (Char.ofNat a.toNat, 1)
    else match rest with
      | [] => none
      | b :: rest =>
        if 0xc2 ≤ a && a ≤ 0xdf then
          if isContinuation b then some (Char.ofNat (a.toNat % 32 * 64 + continuationBits b), 2)
          else none
        else match rest with
          | [] => none
          | c :: rest =>
            if 0xe0 ≤ a && a ≤ 0xef then
              if isContinuation b && isContinuation c && (a != 0xe0 || 0xa0 ≤ b) &&
                  (a != 0xed || b ≤ 0x9f) then
                some (Char.ofNat ((a.toNat % 16 * 64 + continuationBits b) * 64 +
                  continuationBits c), 3)
              else none
            else match rest with
              | [] => none
              | d :: _ =>
                if 0xf0 ≤ a && a ≤ 0xf4 && isContinuation b && isContinuation c &&
                    isContinuation d && (a != 0xf0 || 0x90 ≤ b) && (a != 0xf4 || b ≤ 0x8f) then
                  some (Char.ofNat (((a.toNat % 8 * 64 + continuationBits b) * 64 +
                    continuationBits c) * 64 + continuationBits d), 4)
                else none

theorem length_pos_of_decodeFirst {bytes : List UInt8} {c : Char} {size : Nat}
    (h : decodeFirst bytes = some (c, size)) : 0 < size ∧ 0 < bytes.length := by
  unfold decodeFirst at h
  split at h
  · simp at h
  · refine ⟨?_, by simp⟩
    split at h
    · simp at h; omega
    · split at h
      · simp at h
      · split at h
        · split at h
          · simp at h; omega
          · simp at h
        · split at h
          · simp at h
          · split at h
            · split at h
              · simp at h; omega
              · simp at h
            · split at h
              · simp at h
              · split at h
                · simp at h; omega
                · simp at h

/-- The characters that bytes spell, or how many bytes stand before the first ill-formed
sequence. -/
def decodeFrom (offset : Nat) (bytes : List UInt8) : Except Nat (List Char) :=
  match _h : decodeFirst bytes with
  | none => if bytes.isEmpty then .ok [] else .error offset
  | some (c, size) => (decodeFrom (offset + size) (bytes.drop size)).map (c :: ·)
termination_by bytes.length
decreasing_by
  have := length_pos_of_decodeFirst _h
  simp only [List.length_drop]
  omega

/-- The text that bytes spell in UTF-8. -/
def decodeUtf8 (bytes : List UInt8) : Except Nat String := (decodeFrom 0 bytes).map String.ofList

def encodeUtf8 (text : String) : List UInt8 := text.toUTF8.toList

end LiveTables.Text
