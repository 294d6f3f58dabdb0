import LiveTables.Text.Utf8
import Mathlib.Algebra.Order.Group.Nat

/-!
# Text as bytes and back

The bytes that spell a text in UTF-8 are read as that text. A character takes one byte when it is
ASCII, and otherwise several that are all beyond ASCII.
-/

namespace LiveTables.Text

/-! ### Reading one character -/

section Sequences

variable {a b c d : UInt8} {rest : List UInt8}

theorem isBetween_iff {low high : UInt8} : (low ≤ a && a ≤ high) = true ↔
    low.toNat ≤ a.toNat ∧ a.toNat ≤ high.toNat := by
  simp [UInt8.le_iff_toNat_le]

theorem isContinuation_iff : isContinuation b = true ↔ 0x80 ≤ b.toNat ∧ b.toNat ≤ 0xbf :=
  isBetween_iff

/-- A bound on the second byte that a lead byte sets. -/
theorem ne_or_iff {lead : UInt8} {bounded : Bool} :
    (a != lead || bounded) = true ↔ (a.toNat = lead.toNat → bounded = true) := by
  simp [← UInt8.toNat_inj, imp_iff_not_or]

theorem not_lt_of_lead (ha : 0x80 ≤ a.toNat) : ¬ a < 0x80 := by
  rw [UInt8.lt_iff_toNat_lt]
  exact Nat.not_lt.2 ha

theorem decodeFirst_one (ha : a.toNat < 0x80) :
    decodeFirst (a :: rest) = some (Char.ofNat a.toNat, 1) := by
  have hfirst : a < 0x80 := UInt8.lt_iff_toNat_lt.2 ha
  simp only [decodeFirst, hfirst, ↓reduceIte]

theorem decodeFirst_two (ha : 0xc2 ≤ a.toNat ∧ a.toNat ≤ 0xdf)
    (hb : 0x80 ≤ b.toNat ∧ b.toNat ≤ 0xbf) : decodeFirst (a :: b :: rest) =
      some (Char.ofNat (a.toNat % 32 * 64 + b.toNat % 64), 2) := by
  have hfirst := not_lt_of_lead (by omega : 0x80 ≤ a.toNat)
  have htwo : (0xc2 ≤ a && a ≤ 0xdf) = true := isBetween_iff.2 ha
  simp only [decodeFirst, hfirst, htwo, isContinuation_iff.2 hb, continuationBits, ↓reduceIte]

theorem decodeFirst_three (ha : 0xe0 ≤ a.toNat ∧ a.toNat ≤ 0xef)
    (hb : 0x80 ≤ b.toNat ∧ b.toNat ≤ 0xbf) (hc : 0x80 ≤ c.toNat ∧ c.toNat ≤ 0xbf)
    (hshort : a.toNat = 0xe0 → 0xa0 ≤ b.toNat) (hsurrogate : a.toNat = 0xed → b.toNat ≤ 0x9f) :
    decodeFirst (a :: b :: c :: rest) =
      some (Char.ofNat ((a.toNat % 16 * 64 + b.toNat % 64) * 64 + c.toNat % 64), 3) := by
  have hfirst := not_lt_of_lead (by omega : 0x80 ≤ a.toNat)
  have htwo : ¬ (0xc2 ≤ a && a ≤ 0xdf) = true := fun h => by
    have hle : a.toNat ≤ 0xdf := (isBetween_iff.1 h).2
    omega
  have hthree : (0xe0 ≤ a && a ≤ 0xef) = true := isBetween_iff.2 ha
  have hlow : (a != 0xe0 || 0xa0 ≤ b) = true := ne_or_iff.2 fun h =>
    decide_eq_true (UInt8.le_iff_toNat_le.2 (hshort h))
  have hhigh : (a != 0xed || b ≤ 0x9f) = true := ne_or_iff.2 fun h =>
    decide_eq_true (UInt8.le_iff_toNat_le.2 (hsurrogate h))
  simp only [decodeFirst, hfirst, htwo, hthree, hlow, hhigh, isContinuation_iff.2 hb,
    isContinuation_iff.2 hc, continuationBits, Bool.and_self, Bool.false_eq_true, ↓reduceIte]

theorem decodeFirst_four (ha : 0xf0 ≤ a.toNat ∧ a.toNat ≤ 0xf4)
    (hb : 0x80 ≤ b.toNat ∧ b.toNat ≤ 0xbf) (hc : 0x80 ≤ c.toNat ∧ c.toNat ≤ 0xbf)
    (hd : 0x80 ≤ d.toNat ∧ d.toNat ≤ 0xbf) (hshort : a.toNat = 0xf0 → 0x90 ≤ b.toNat)
    (hbeyond : a.toNat = 0xf4 → b.toNat ≤ 0x8f) : decodeFirst (a :: b :: c :: d :: rest) =
      some (Char.ofNat (((a.toNat % 8 * 64 + b.toNat % 64) * 64 + c.toNat % 64) * 64 +
        d.toNat % 64), 4) := by
  have hfirst := not_lt_of_lead (by omega : 0x80 ≤ a.toNat)
  have htwo : ¬ (0xc2 ≤ a && a ≤ 0xdf) = true := fun h => by
    have hle : a.toNat ≤ 0xdf := (isBetween_iff.1 h).2
    omega
  have hthree : ¬ (0xe0 ≤ a && a ≤ 0xef) = true := fun h => by
    have hle : a.toNat ≤ 0xef := (isBetween_iff.1 h).2
    omega
  have hfour : (0xf0 ≤ a && a ≤ 0xf4) = true := isBetween_iff.2 ha
  have hlow : (a != 0xf0 || 0x90 ≤ b) = true := ne_or_iff.2 fun h =>
    decide_eq_true (UInt8.le_iff_toNat_le.2 (hshort h))
  have hhigh : (a != 0xf4 || b ≤ 0x8f) = true := ne_or_iff.2 fun h =>
    decide_eq_true (UInt8.le_iff_toNat_le.2 (hbeyond h))
  simp only [decodeFirst, hfirst, htwo, hthree, hfour, hlow, hhigh, isContinuation_iff.2 hb,
    isContinuation_iff.2 hc, isContinuation_iff.2 hd, continuationBits, Bool.and_self,
    Bool.false_eq_true, ↓reduceIte]

end Sequences

/-! ### The bytes of one character -/

theorem toNat_of_char (c : Char) :
    c.toNat < 0x110000 ∧ ¬ (0xd800 ≤ c.toNat ∧ c.toNat ≤ 0xdfff) := by
  have hvalid : c.toNat < 0xd800 ∨ 0xdfff < c.toNat ∧ c.toNat < 0x110000 := c.valid
  omega

theorem utf8EncodeChar_one {c : Char} (h : c.toNat < 0x80) :
    String.utf8EncodeChar c = [UInt8.ofNat c.toNat] :=
  if_pos (Nat.le_of_lt_succ h)

theorem utf8EncodeChar_two {c : Char} (hlow : 0x80 ≤ c.toNat) (hhigh : c.toNat < 0x800) :
    String.utf8EncodeChar c =
      [UInt8.ofNat (c.toNat / 64 % 32 + 0xc0), UInt8.ofNat (c.toNat % 64 + 0x80)] :=
  (if_neg (Nat.not_le.2 hlow)).trans (if_pos (Nat.le_of_lt_succ hhigh))

theorem utf8EncodeChar_three {c : Char} (hlow : 0x800 ≤ c.toNat) (hhigh : c.toNat < 0x10000) :
    String.utf8EncodeChar c = [UInt8.ofNat (c.toNat / 4096 % 16 + 0xe0),
      UInt8.ofNat (c.toNat / 64 % 64 + 0x80), UInt8.ofNat (c.toNat % 64 + 0x80)] :=
  (if_neg (by change ¬ c.toNat ≤ 0x7f; omega)).trans
    ((if_neg (Nat.not_le.2 hlow)).trans (if_pos (Nat.le_of_lt_succ hhigh)))

theorem utf8EncodeChar_four {c : Char} (hlow : 0x10000 ≤ c.toNat) :
    String.utf8EncodeChar c = [UInt8.ofNat (c.toNat / 262144 % 8 + 0xf0),
      UInt8.ofNat (c.toNat / 4096 % 64 + 0x80), UInt8.ofNat (c.toNat / 64 % 64 + 0x80),
      UInt8.ofNat (c.toNat % 64 + 0x80)] :=
  (if_neg (by change ¬ c.toNat ≤ 0x7f; omega)).trans
    ((if_neg (by change ¬ c.toNat ≤ 0x7ff; omega)).trans (if_neg (Nat.not_le.2 hlow)))

/-- All bytes of a character beyond ASCII are beyond ASCII. -/
theorem le_of_mem_utf8EncodeChar {c : Char} (h : 0x80 ≤ c.toNat) {b : UInt8}
    (hb : b ∈ String.utf8EncodeChar c) : 0x80 ≤ b.toNat := by
  have hbyte : ∀ n, 0x80 ≤ n → n < 0x100 → 0x80 ≤ (UInt8.ofNat n).toNat := by
    intro n hlow hhigh
    rwa [UInt8.toNat_ofNat_of_lt' hhigh]
  by_cases htwo : c.toNat < 0x800
  · rw [utf8EncodeChar_two h htwo] at hb
    simp only [List.mem_cons, List.not_mem_nil, or_false] at hb
    rcases hb with rfl | rfl <;> exact hbyte _ (by omega) (by omega)
  by_cases hthree : c.toNat < 0x10000
  · rw [utf8EncodeChar_three (by omega) hthree] at hb
    simp only [List.mem_cons, List.not_mem_nil, or_false] at hb
    rcases hb with rfl | rfl | rfl <;> exact hbyte _ (by omega) (by omega)
  · rw [utf8EncodeChar_four (by omega)] at hb
    simp only [List.mem_cons, List.not_mem_nil, or_false] at hb
    rcases hb with rfl | rfl | rfl | rfl <;> exact hbyte _ (by omega) (by omega)

/-- The bytes of a character are read as that character, whatever comes behind them. -/
theorem decodeFirst_utf8EncodeChar (c : Char) (rest : List UInt8) :
    decodeFirst (String.utf8EncodeChar c ++ rest) =
      some (c, (String.utf8EncodeChar c).length) := by
  obtain ⟨hlt, hsurrogate⟩ := toNat_of_char c
  have hbyte : ∀ n, n < 0x100 → (UInt8.ofNat n).toNat = n := fun n hn =>
    UInt8.toNat_ofNat_of_lt' hn
  by_cases hone : c.toNat < 0x80
  · have hnumber := hbyte c.toNat (by omega)
    rw [utf8EncodeChar_one hone, List.singleton_append, decodeFirst_one (by rwa [hnumber]), hnumber,
      Char.ofNat_toNat]
    rfl
  by_cases htwo : c.toNat < 0x800
  · have ha := hbyte (c.toNat / 64 % 32 + 0xc0) (by omega)
    have hb := hbyte (c.toNat % 64 + 0x80) (by omega)
    have hnumber : (c.toNat / 64 % 32 + 0xc0) % 32 * 64 + (c.toNat % 64 + 0x80) % 64 = c.toNat := by
      omega
    rw [utf8EncodeChar_two (by omega) htwo, List.cons_append, List.singleton_append,
      decodeFirst_two (by rw [ha]; omega) (by rw [hb]; omega), ha, hb, hnumber, Char.ofNat_toNat]
    rfl
  by_cases hthree : c.toNat < 0x10000
  · have ha := hbyte (c.toNat / 4096 % 16 + 0xe0) (by omega)
    have hb := hbyte (c.toNat / 64 % 64 + 0x80) (by omega)
    have hc := hbyte (c.toNat % 64 + 0x80) (by omega)
    have hnumber : ((c.toNat / 4096 % 16 + 0xe0) % 16 * 64 + (c.toNat / 64 % 64 + 0x80) % 64) * 64 +
        (c.toNat % 64 + 0x80) % 64 = c.toNat := by
      omega
    rw [utf8EncodeChar_three (by omega) hthree, List.cons_append, List.cons_append,
      List.singleton_append, decodeFirst_three (by rw [ha]; omega) (by rw [hb]; omega)
        (by rw [hc]; omega) (by rw [ha, hb]; omega) (by rw [ha, hb]; omega), ha, hb, hc, hnumber,
      Char.ofNat_toNat]
    rfl
  · have ha := hbyte (c.toNat / 262144 % 8 + 0xf0) (by omega)
    have hb := hbyte (c.toNat / 4096 % 64 + 0x80) (by omega)
    have hc := hbyte (c.toNat / 64 % 64 + 0x80) (by omega)
    have hd := hbyte (c.toNat % 64 + 0x80) (by omega)
    have hnumber : (((c.toNat / 262144 % 8 + 0xf0) % 8 * 64 + (c.toNat / 4096 % 64 + 0x80) % 64) *
        64 + (c.toNat / 64 % 64 + 0x80) % 64) * 64 + (c.toNat % 64 + 0x80) % 64 = c.toNat := by
      omega
    rw [utf8EncodeChar_four (by omega), List.cons_append, List.cons_append, List.cons_append,
      List.singleton_append, decodeFirst_four (by rw [ha]; omega) (by rw [hb]; omega)
        (by rw [hc]; omega) (by rw [hd]; omega) (by rw [ha, hb]; omega) (by rw [ha, hb]; omega), ha,
      hb, hc, hd, hnumber, Char.ofNat_toNat]
    rfl

/-! ### Whole texts -/

theorem toList_eq_data (bytes : ByteArray) : bytes.toList = bytes.data.toList := by
  have hloop : ∀ i found, ByteArray.toList.loop bytes i found =
      found.reverse ++ bytes.data.toList.drop i := by
    intro i found
    fun_induction ByteArray.toList.loop bytes i found with
    | case1 i found hi ih =>
        have hlength : i < bytes.data.toList.length := hi
        rw [ih, List.drop_eq_getElem_cons hlength]
        simp [ByteArray.get!, hi]
    | case2 i found hi =>
        have hlength : bytes.data.toList.length ≤ i := Nat.not_lt.1 hi
        simp [List.drop_eq_nil_of_le hlength]
  simp [ByteArray.toList, hloop]

theorem encodeUtf8_eq (text : String) :
    encodeUtf8 text = text.toList.flatMap String.utf8EncodeChar := by
  have hbytes : text.toUTF8 = text.toList.utf8Encode := String.utf8Encode_toList.symm
  rw [encodeUtf8, toList_eq_data, hbytes, List.utf8Encode, List.toList_data_toByteArray]

theorem decodeFrom_flatMap (offset : Nat) (text : List Char) :
    decodeFrom offset (text.flatMap String.utf8EncodeChar) = .ok text := by
  induction text generalizing offset with
  | nil =>
      rw [decodeFrom]
      rfl
  | cons c text ih =>
      have hfirst := decodeFirst_utf8EncodeChar c (text.flatMap String.utf8EncodeChar)
      rw [List.flatMap_cons, decodeFrom]
      split
      · next hnone => simp [hfirst] at hnone
      · next first size hsome =>
          obtain ⟨rfl, rfl⟩ := Prod.mk.inj (Option.some.inj (hfirst.symm.trans hsome))
          rw [List.drop_left, ih]
          rfl

theorem decodeUtf8_encodeUtf8 (text : String) : decodeUtf8 (encodeUtf8 text) = .ok text := by
  rw [decodeUtf8, encodeUtf8_eq, decodeFrom_flatMap]
  exact congrArg Except.ok String.ofList_toList

end LiveTables.Text
