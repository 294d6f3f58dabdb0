import LiveTables.Proofs.Utf8Bytes
import LiveTables.Text.Repaired
import Mathlib

/-!
# Bytes made text

No sequence of bytes goes on over an ASCII byte, so bytes are made text piece by piece between the
ASCII bytes in them: an ASCII byte is read as its character wherever it stands, and an ASCII
character is read only where its byte stands.
-/

namespace LiveTables.Text

/-! ### Well-formed sequences -/

/-- A well-formed sequence of bytes and the character that it spells. -/
inductive IsSequence : List UInt8 → Char → Prop
  | one {a : UInt8} (ha : a.toNat < 0x80) : IsSequence [a] (Char.ofNat a.toNat)
  | two {a b : UInt8} (ha : 0xc2 ≤ a.toNat ∧ a.toNat ≤ 0xdf)
      (hb : 0x80 ≤ b.toNat ∧ b.toNat ≤ 0xbf) :
      IsSequence [a, b] (Char.ofNat (a.toNat % 32 * 64 + b.toNat % 64))
  | three {a b c : UInt8} (ha : 0xe0 ≤ a.toNat ∧ a.toNat ≤ 0xef)
      (hb : 0x80 ≤ b.toNat ∧ b.toNat ≤ 0xbf) (hc : 0x80 ≤ c.toNat ∧ c.toNat ≤ 0xbf)
      (hshort : a.toNat = 0xe0 → 0xa0 ≤ b.toNat)
      (hsurrogate : a.toNat = 0xed → b.toNat ≤ 0x9f) :
      IsSequence [a, b, c] (Char.ofNat ((a.toNat % 16 * 64 + b.toNat % 64) * 64 + c.toNat % 64))
  | four {a b c d : UInt8} (ha : 0xf0 ≤ a.toNat ∧ a.toNat ≤ 0xf4)
      (hb : 0x80 ≤ b.toNat ∧ b.toNat ≤ 0xbf) (hc : 0x80 ≤ c.toNat ∧ c.toNat ≤ 0xbf)
      (hd : 0x80 ≤ d.toNat ∧ d.toNat ≤ 0xbf) (hshort : a.toNat = 0xf0 → 0x90 ≤ b.toNat)
      (hbeyond : a.toNat = 0xf4 → b.toNat ≤ 0x8f) :
      IsSequence [a, b, c, d]
        (Char.ofNat (((a.toNat % 8 * 64 + b.toNat % 64) * 64 + c.toNat % 64) * 64 + d.toNat % 64))

theorem IsSequence.decodeFirst_append {bytes : List UInt8} {c : Char} (h : IsSequence bytes c)
    (rest : List UInt8) : decodeFirst (bytes ++ rest) = some (c, bytes.length) := by
  cases h with
  | one ha => exact decodeFirst_one ha
  | two ha hb => exact decodeFirst_two ha hb
  | three ha hb hc hshort hsurrogate => exact decodeFirst_three ha hb hc hshort hsurrogate
  | four ha hb hc hd hshort hbeyond => exact decodeFirst_four ha hb hc hd hshort hbeyond

/-- The bytes that are read as one character are a well-formed sequence. -/
theorem exists_sequence {bytes : List UInt8} {c : Char} {size : Nat}
    (h : decodeFirst bytes = some (c, size)) :
    ∃ sequence rest, bytes = sequence ++ rest ∧ IsSequence sequence c ∧ size = sequence.length := by
  unfold decodeFirst at h
  split at h
  · cases h
  next a rest =>
    split at h
    next hone =>
      obtain ⟨rfl, rfl⟩ := Prod.mk.inj (Option.some.inj h)
      exact ⟨[a], rest, rfl, .one (UInt8.lt_iff_toNat_lt.1 hone), rfl⟩
    split at h
    · cases h
    next b rest =>
      split at h
      next htwo =>
        split at h
        next hb =>
          obtain ⟨rfl, rfl⟩ := Prod.mk.inj (Option.some.inj h)
          exact ⟨[a, b], rest, rfl, .two (isBetween_iff.1 htwo) (isContinuation_iff.1 hb), rfl⟩
        · cases h
      split at h
      · cases h
      next c rest =>
        split at h
        next hthree =>
          split at h
          next hconditions =>
            obtain ⟨rfl, rfl⟩ := Prod.mk.inj (Option.some.inj h)
            simp only [Bool.and_eq_true] at hconditions
            obtain ⟨⟨⟨hb, hc⟩, hshort⟩, hsurrogate⟩ := hconditions
            refine ⟨[a, b, c], rest, rfl, .three (isBetween_iff.1 hthree) (isContinuation_iff.1 hb)
              (isContinuation_iff.1 hc) ?_ ?_, rfl⟩
            · intro heq
              simpa [UInt8.le_iff_toNat_le] using ne_or_iff.1 hshort heq
            · intro heq
              simpa [UInt8.le_iff_toNat_le] using ne_or_iff.1 hsurrogate heq
          · cases h
        split at h
        · cases h
        next d rest =>
          split at h
          next hconditions =>
            obtain ⟨rfl, rfl⟩ := Prod.mk.inj (Option.some.inj h)
            simp only [Bool.and_eq_true] at hconditions
            obtain ⟨⟨⟨⟨⟨⟨hlow, hhigh⟩, hb⟩, hc⟩, hd⟩, hshort⟩, hbeyond⟩ := hconditions
            have hlead := isBetween_iff.1 (Bool.and_eq_true_iff.2 ⟨hlow, hhigh⟩)
            refine ⟨[a, b, c, d], rest, rfl, .four hlead (isContinuation_iff.1 hb)
              (isContinuation_iff.1 hc) (isContinuation_iff.1 hd) ?_ ?_, rfl⟩
            · intro heq
              simpa [UInt8.le_iff_toNat_le] using ne_or_iff.1 hshort heq
            · intro heq
              simpa [UInt8.le_iff_toNat_le] using ne_or_iff.1 hbeyond heq
          · cases h

namespace IsSequence

variable {bytes : List UInt8} {c : Char}

theorem ne_nil (h : IsSequence bytes c) : bytes ≠ [] := by
  cases h <;> exact List.cons_ne_nil _ _

/-- An ASCII byte is a sequence of its own. -/
theorem eq_singleton (h : IsSequence bytes c) {a : UInt8} (ha : a ∈ bytes)
    (hascii : a.toNat < 0x80) : bytes = [a] ∧ c = Char.ofNat a.toNat := by
  cases h with
  | one =>
      obtain rfl := List.mem_singleton.1 ha
      exact ⟨rfl, rfl⟩
  | two hlead hb =>
      simp only [List.mem_cons, List.not_mem_nil, or_false] at ha
      rcases ha with rfl | rfl <;> omega
  | three hlead hb hc =>
      simp only [List.mem_cons, List.not_mem_nil, or_false] at ha
      rcases ha with rfl | rfl | rfl <;> omega
  | four hlead hb hc hd =>
      simp only [List.mem_cons, List.not_mem_nil, or_false] at ha
      rcases ha with rfl | rfl | rfl | rfl <;> omega

/-- Only an ASCII byte spells an ASCII character. NUL is left out: numbers that are no character are
read as it as well. -/
theorem exists_eq_singleton (h : IsSequence bytes c) (hascii : c.toNat < 0x80) (hc : c.toNat ≠ 0) :
    ∃ a : UInt8, bytes = [a] ∧ a.toNat = c.toNat := by
  have hnumber : ∀ n, 0x80 ≤ n → c ≠ Char.ofNat n := by
    rintro n hn rfl
    rw [Char.toNat_ofNat] at hascii hc
    split_ifs at hascii hc
    · omega
    · exact hc rfl
  cases h with
  | one ha =>
      refine ⟨_, rfl, ?_⟩
      rw [Char.toNat_ofNat, if_pos (Or.inl (by omega))]
  | two ha hb => exact absurd rfl (hnumber _ (by omega))
  | three ha hb hc hshort hsurrogate => exact absurd rfl (hnumber _ (by omega))
  | four ha hb hc hd hshort hbeyond => exact absurd rfl (hnumber _ (by omega))

end IsSequence

/-! ### An ASCII byte behind other bytes -/

section Ascii

variable {before after : List UInt8} {a : UInt8} (hne : before ≠ []) (ha : a.toNat < 0x80)
include ha

theorem isContinuation_eq_false_of_ascii : isContinuation a = false := by
  rw [Bool.eq_false_iff]
  intro h
  have hlow := (isContinuation_iff.1 h).1
  omega

include hne

/-- No sequence goes on over an ASCII byte. -/
theorem decodeFirst_append_ascii : decodeFirst (before ++ a :: after) = decodeFirst before := by
  have hsame : ∀ c size, decodeFirst (before ++ a :: after) = some (c, size) ↔
      decodeFirst before = some (c, size) := by
    intro c size
    constructor
    · intro h
      obtain ⟨sequence, rest, hsplit, hsequence, rfl⟩ := exists_sequence h
      rcases List.append_eq_append_iff.1 hsplit with ⟨more, hmore, hrest⟩ | ⟨more, rfl, _⟩
      · cases more with
        | nil =>
            rw [List.append_nil] at hmore
            rw [← hmore]
            simpa using hsequence.decodeFirst_append []
        | cons b more =>
            obtain ⟨rfl, -⟩ := List.cons.inj hrest
            -- the sequence would go on over `a`, but `a` is a sequence of its own
            have hmem : a ∈ sequence := by simp [hmore]
            obtain ⟨hsingle, -⟩ := hsequence.eq_singleton hmem ha
            rw [hsingle] at hmore
            cases before with
            | nil => exact absurd rfl hne
            | cons b before => simp at hmore
      · exact hsequence.decodeFirst_append more
    · intro h
      obtain ⟨sequence, rest, rfl, hsequence, rfl⟩ := exists_sequence h
      rw [List.append_assoc]
      exact hsequence.decodeFirst_append _
  rcases hfirst : decodeFirst before with _ | ⟨c, size⟩
  · rw [Option.eq_none_iff_forall_ne_some]
    rintro ⟨c, size⟩ h
    simp [(hsame c size).1 h] at hfirst
  · exact (hsame c size).2 hfirst

theorem brokenLength_append_ascii : brokenLength (before ++ a :: after) = brokenLength before := by
  have hfalse := isContinuation_eq_false_of_ascii ha
  match before, hne with
  | [b], _ => simp [brokenLength, startsThree, startsFour, hfalse]
  | [b, c], _ => simp [brokenLength, hfalse]
  | b :: c :: d :: before, _ => simp [brokenLength]

end Ascii

theorem brokenLength_le {bytes : List UInt8} (hne : bytes ≠ []) :
    brokenLength bytes ≤ bytes.length := by
  match bytes, hne with
  | [_], _ => simp [brokenLength]
  | [_, _], _ =>
    simp only [brokenLength, List.length_cons, List.length_nil]
    split_ifs <;> omega
  | _ :: _ :: _ :: _, _ =>
    simp only [brokenLength, List.length_cons]
    split_ifs <;> omega

/-! ### Texts made whole -/

theorem repairFrom_of_some {bytes : List UInt8} {c : Char} {size : Nat}
    (h : decodeFirst bytes = some (c, size)) :
    repairFrom bytes = c :: repairFrom (bytes.drop size) := by
  rw [repairFrom]
  split
  · next hsome =>
      obtain ⟨rfl, rfl⟩ := Prod.mk.inj (Option.some.inj (h.symm.trans hsome))
      rfl
  · next hnone => simp [h] at hnone

theorem repairFrom_of_none {bytes : List UInt8} (hne : bytes ≠ []) (h : decodeFirst bytes = none) :
    repairFrom bytes = replacement :: repairFrom (bytes.drop (brokenLength bytes)) := by
  rw [repairFrom]
  split
  · next hsome => simp [h] at hsome
  · rw [if_neg (by simpa using hne)]

@[simp]
theorem repairFrom_nil : repairFrom [] = [] := by
  rw [repairFrom]
  rfl

/-- An ASCII byte is read as its character wherever it stands. -/
theorem repairFrom_append_ascii (before : List UInt8) {a : UInt8} (ha : a.toNat < 0x80)
    (after : List UInt8) : repairFrom (before ++ a :: after) =
      repairFrom before ++ Char.ofNat a.toNat :: repairFrom after := by
  fun_induction repairFrom before with
  | case1 before c size hfirst ih =>
      have hne : before ≠ [] := by
        rintro rfl
        cases hfirst
      obtain ⟨sequence, rest, rfl, hsequence, rfl⟩ := exists_sequence hfirst
      rw [repairFrom_of_some ((decodeFirst_append_ascii hne ha).trans hfirst)]
      simpa using ih
  | case2 before hfirst hempty =>
      rw [List.isEmpty_iff] at hempty
      subst hempty
      rw [List.nil_append, repairFrom_of_some (decodeFirst_one ha)]
      rfl
  | case3 before hfirst hempty ih =>
      have hne : before ≠ [] := by simpa using hempty
      rw [repairFrom_of_none (by simp) ((decodeFirst_append_ascii hne ha).trans hfirst),
        brokenLength_append_ascii hne ha, List.drop_append_of_le_length (brokenLength_le hne), ih]
      rfl

/-- An ASCII character other than NUL stands only for a byte. -/
theorem mem_of_mem_repairFrom {bytes : List UInt8} {c : Char} (hascii : c.toNat < 0x80)
    (hc : c.toNat ≠ 0) (h : c ∈ repairFrom bytes) : UInt8.ofNat c.toNat ∈ bytes := by
  fun_induction repairFrom bytes with
  | case1 bytes first size hfirst ih =>
      rcases List.mem_cons.1 h with rfl | h
      · obtain ⟨sequence, rest, rfl, hsequence, -⟩ := exists_sequence hfirst
        obtain ⟨a, rfl, ha⟩ := hsequence.exists_eq_singleton hascii hc
        simp [← ha]
      · exact List.mem_of_mem_drop (ih h)
  | case2 bytes hfirst hempty => cases h
  | case3 bytes hfirst hempty ih =>
      rcases List.mem_cons.1 h with rfl | h
      · exact absurd hascii (by decide)
      · exact List.mem_of_mem_drop (ih h)

theorem repairFrom_eq_nil_iff {bytes : List UInt8} : repairFrom bytes = [] ↔ bytes = [] := by
  constructor
  · intro h
    by_contra hne
    rcases hfirst : decodeFirst bytes with _ | ⟨c, size⟩
    · simp [repairFrom_of_none hne hfirst] at h
    · simp [repairFrom_of_some hfirst] at h
  · rintro rfl
    exact repairFrom_nil

theorem repairFrom_flatMap (text : List Char) :
    repairFrom (text.flatMap String.utf8EncodeChar) = text := by
  induction text with
  | nil => exact repairFrom_nil
  | cons c text ih =>
      rw [List.flatMap_cons, repairFrom_of_some (decodeFirst_utf8EncodeChar c _), List.drop_left,
        ih]

/-- The bytes that spell a text are read as it. -/
theorem repairUtf8_encodeUtf8 (text : String) : repairUtf8 (encodeUtf8 text) = text := by
  rw [repairUtf8, encodeUtf8_eq, repairFrom_flatMap, String.ofList_toList]

end LiveTables.Text
