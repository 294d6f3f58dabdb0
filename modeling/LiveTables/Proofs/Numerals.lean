import LiveTables.Number.Decimal
import LiveTables.Proofs.TextRuns
import LiveTables.Text.Escaped
import Mathlib.Algebra.Order.Group.Nat
import Mathlib.Data.List.TakeWhile
import Mathlib.Data.Nat.Digits.Defs

/-!
# Numbers written in digits

A number written in base ten is a run of digits with no zero in front of others, and the digits have
the number as their value. Zeros that fill it up to a number of places change nothing of that value.
The number of an ASCII character has two digits in base sixteen.
-/

namespace LiveTables.Number

theorem toList_toString (n : Nat) : (toString n).toList = Nat.toDigits 10 n :=
  Nat.toList_repr

theorem isDigit_of_mem_digits {n : Nat} {c : Char} (h : c ∈ (toString n).toList) :
    isDigit c = true :=
  Nat.isDigit_of_mem_toDigits (by decide) (by decide) (toList_toString n ▸ h)

theorem digits_ne_nil (n : Nat) : (toString n).toList ≠ [] :=
  toList_toString n ▸ Nat.toDigits_ne_nil

theorem digitsValue_toString (n : Nat) : digitsValue (toString n).toList = n :=
  toList_toString n ▸ Nat.ofDigitChars_ten_toDigits

theorem digitChar_ne_zero {n : Nat} (hsmall : n < 10) (hn : n ≠ 0) : n.digitChar ≠ '0' := by
  decide +revert

/-- A number other than zero does not start with the digit zero. -/
theorem head?_digits {n : Nat} (hn : n ≠ 0) : (toString n).toList.head? ≠ some '0' := by
  rw [toList_toString]
  induction n using Nat.strong_induction_on with
  | h n ih =>
      rw [Nat.toDigits_eq_if (by decide)]
      split_ifs with hsmall
      · simpa using digitChar_ne_zero hsmall hn
      · obtain ⟨first, more, hdigits⟩ :=
          List.exists_cons_of_ne_nil (@Nat.toDigits_ne_nil (n / 10) 10)
        simpa [hdigits] using ih (n / 10) (by omega) (by omega)

theorem head?_digits_of_length (n : Nat) (h : (toString n).toList.length ≠ 1) :
    (toString n).toList.head? ≠ some '0' := by
  by_cases hn : n = 0
  · exact absurd (hn ▸ rfl) h
  · exact head?_digits hn

/-! ### Texts of digits -/

theorem readSign_of_isDigit {first : Char} (h : isDigit first = true) (rest : List Char) :
    readSign (first :: rest) = (false, first :: rest) := by
  unfold readSign
  split
  case h_1 hminus =>
      obtain ⟨rfl, -⟩ := List.cons.inj hminus
      exact absurd h (by decide)
  case h_2 hplus =>
      obtain ⟨rfl, -⟩ := List.cons.inj hplus
      exact absurd h (by decide)
  case h_3 => rfl

section Digits

variable {digits : List Char} (hdigits : ∀ c ∈ digits, isDigit c = true)
include hdigits

theorem not_mem_of_isDigit {c : Char} (hc : isDigit c = false) : c ∉ digits := fun hmem => by
  simp [hdigits c hmem] at hc

theorem readSign_digits : readSign digits = (false, digits) := by
  cases digits with
  | nil => rfl
  | cons first more => exact readSign_of_isDigit (hdigits first List.mem_cons_self) more

theorem spanDigits_append {rest : List Char}
    (hrest : ∀ c, rest.head? = some c → isDigit c = false) :
    spanDigits (digits ++ rest) = (digits, rest) := by
  rw [spanDigits, Text.takeWhile_append_of_head hdigits hrest,
    Text.dropWhile_append_of_head hdigits hrest]

theorem spanDigits_digits : spanDigits digits = (digits, []) := by
  rw [spanDigits, List.takeWhile_eq_self_iff.2 hdigits, List.dropWhile_eq_nil_iff.2 hdigits]

end Digits

/-! ### Numbers filled up with zeros -/

theorem toList_padded (width n : Nat) : (padded width n).toList =
    List.replicate (width - (toString n).length) '0' ++ (toString n).toList := by
  simp [padded]

theorem isDigit_of_mem_padded {width n : Nat} {c : Char} (h : c ∈ (padded width n).toList) :
    isDigit c = true := by
  rw [toList_padded, List.mem_append] at h
  rcases h with hzero | hdigit
  · rw [List.eq_of_mem_replicate hzero]
    decide
  · exact isDigit_of_mem_digits hdigit

theorem digitsValue_padded (width n : Nat) : digitsValue (padded width n).toList = n := by
  rw [toList_padded]
  induction width - (toString n).length with
  | zero => exact digitsValue_toString n
  | succ zeros ih => simpa [List.replicate_succ, digitsValue, digitValue] using ih

/-- A number with no more digits than there are places takes up just these places. -/
theorem length_padded {width n : Nat} (hwidth : 0 < width) (hn : n < 10 ^ width) :
    (padded width n).toList.length = width := by
  have hdigits : (toString n).length ≤ width := Nat.repr_length n width hwidth hn
  rw [toList_padded, List.length_append, List.length_replicate, String.length_toList]
  omega

end LiveTables.Number

namespace LiveTables.Text

theorem paddedHex_four {n : Nat} (hn : n < 128) :
    paddedHex 4 n = ['0', '0', hexDigit (n / 16), hexDigit (n % 16)] := by
  decide +revert

end LiveTables.Text
