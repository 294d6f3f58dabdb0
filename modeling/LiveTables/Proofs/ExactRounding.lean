import LiveTables.Number.Binary
import Mathlib

/-!
# Rounding of what a format has

A floating point number of a narrower format is one of the wider format as well, so it is taken
there without a change of value: rounding to units of which it is a whole number does nothing to it.
-/

namespace LiveTables.Number

/-- The numbers of a format: infinities, what is no number, and the finite ones whose significand
and exponent lie in its bounds. -/
def Format.Holds (format : Format) : Binary → Prop
  | .finite _ significand exponent => significand < 2 ^ format.precision ∧
      format.leastExponent ≤ exponent ∧ exponent ≤ format.greatestExponent
  | _ => True

/-- The number that a finite floating point number stands for. -/
def Binary.value? : Binary → Option ℚ
  | .finite negative significand exponent =>
    some ((if negative then -1 else 1) * (significand * 2 ^ exponent))
  | _ => none

/-! ### Bounds of logarithms -/

theorem floorLog_le (numerator denominator : Nat) :
    floorLog numerator denominator ≤ (numerator.log2 : Int) - denominator.log2 := by
  simp only [floorLog]
  split <;> omega

theorem log2_lt_of_lt {n bits : Nat} (hbits : 0 < bits) (h : n < 2 ^ bits) : n.log2 < bits := by
  by_cases hzero : n = 0
  · simpa [hzero] using hbits
  · exact (Nat.log2_lt hzero).2 h

/-! ### Whole numbers of units -/

theorem divideToEven_mul {quotient denominator : Nat} (h : 0 < denominator) :
    divideToEven (quotient * denominator) denominator = quotient := by
  have hdiv : quotient * denominator / denominator = quotient := Nat.mul_div_cancel _ h
  have hmod : quotient * denominator % denominator = 0 := Nat.mul_mod_left _ _
  simp [divideToEven, hdiv, hmod, h.ne]

/-- The units of two to an `exponent` that a fraction is rounded to. -/
def nearestUnits (numerator denominator : Nat) : Int → Nat
  | .ofNat up => divideToEven numerator (denominator * Nat.pow 2 up)
  | .negSucc down => divideToEven (numerator * Nat.pow 2 (down + 1)) denominator

/-- Rounding takes the least unit that the precision and the range of a format allow. -/
theorem Format.round_eq {format : Format} {numerator denominator : Nat} (negative : Bool)
    (h : numerator ≠ 0) : format.round negative numerator denominator =
      let exponent := max format.leastExponent
        (floorLog numerator denominator - (format.precision - 1 : Nat))
      let significand := nearestUnits numerator denominator exponent
      let carried := if significand = 2 ^ format.precision then
        (2 ^ (format.precision - 1), exponent + 1) else (significand, exponent)
      if format.greatestExponent < carried.2 then .infinite negative
      else .finite negative carried.1 carried.2 := by
  have hzero : (numerator == 0) = false := beq_eq_false_iff_ne.2 h
  simp only [round, hzero, Bool.false_eq_true, if_false, beq_iff_eq]
  rfl

section Round

variable {numerator denominator significand : Nat} {exponent : Int} (hd : 0 < denominator)
  (hvalue : (numerator : ℚ) = significand * 2 ^ exponent * denominator)
include hd hvalue

theorem nearestUnits_of_exact : nearestUnits numerator denominator exponent = significand := by
  cases exponent with
  | ofNat up =>
      have hscaled : numerator = significand * (denominator * Nat.pow 2 up) := by
        have h : (numerator : ℚ) = significand * (denominator * 2 ^ up) := by
          rw [hvalue, Int.ofNat_eq_natCast, zpow_natCast]
          ring
        exact_mod_cast h
      rw [hscaled]
      exact divideToEven_mul (Nat.mul_pos hd (Nat.pow_pos (by decide)))
  | negSucc down =>
      have hscaled : numerator * Nat.pow 2 (down + 1) = significand * denominator := by
        have h : (numerator : ℚ) * 2 ^ (down + 1) = significand * denominator := by
          rw [hvalue, zpow_negSucc]
          field_simp
        exact_mod_cast h
      rw [nearestUnits, hscaled, divideToEven_mul hd]

/-- A number that a format has is not changed by rounding. -/
theorem Format.value?_round {format : Format} (hprecision : 0 < format.precision)
    (hleast : format.leastExponent ≤ exponent) (hgreatest : exponent < format.greatestExponent)
    (hlog : floorLog numerator denominator < exponent + format.precision) (negative : Bool) :
    (format.round negative numerator denominator).value? =
      (Binary.finite negative significand exponent).value? := by
  by_cases hzero : numerator = 0
  · have hsignificand : significand = 0 := by
      have hproduct : (significand : ℚ) * 2 ^ exponent * denominator = 0 := by
        rw [← hvalue, hzero, Nat.cast_zero]
      have hpower : (2 : ℚ) ^ exponent ≠ 0 := zpow_ne_zero _ two_ne_zero
      simpa [hpower, hd.ne'] using hproduct
    simp [Format.round, Binary.value?, hsignificand, hzero]
  rw [Format.round_eq negative hzero]
  have hunit : max format.leastExponent
      (floorLog numerator denominator - (format.precision - 1 : Nat)) ≤ exponent := by
    omega
  generalize max format.leastExponent
    (floorLog numerator denominator - (format.precision - 1 : Nat)) = unit at hunit ⊢
  obtain ⟨shift, rfl⟩ := Int.le.dest hunit
  have hpower : (2 : ℚ) ^ (unit + shift) = 2 ^ shift * 2 ^ unit := by
    rw [zpow_add₀ two_ne_zero, zpow_natCast, mul_comm]
  have hexact : (numerator : ℚ) = (significand * 2 ^ shift : Nat) * 2 ^ unit * denominator := by
    rw [hvalue, hpower]
    push_cast
    ring
  simp only [nearestUnits_of_exact hd hexact]
  split_ifs with hcarry hbig hbig
  · omega
  · have hcarry' : (significand : ℚ) * 2 ^ shift = 2 ^ format.precision := by exact_mod_cast hcarry
    have hhalf : (2 : ℚ) ^ format.precision = 2 ^ (format.precision - 1) * 2 :=
      (pow_sub_one_mul hprecision.ne' 2).symm
    simp only [Binary.value?, hpower]
    rw [zpow_add_one₀ two_ne_zero, ← mul_assoc (significand : ℚ), hcarry', hhalf]
    push_cast
    ring_nf
  · omega
  · simp only [Binary.value?, hpower]
    push_cast
    ring_nf

end Round

/-! ### From single to double precision -/

/-- A number of single precision is the same number at double precision. -/
theorem Binary.value?_widen {x : Binary} (h : binary32.Holds x) : x.widen.value? = x.value? := by
  match x with
  | .nan => rfl
  | .infinite _ => rfl
  | .finite negative significand exponent =>
      obtain ⟨hsignificand, hleast, hgreatest⟩ := h
      simp only [binary32] at hsignificand hleast hgreatest
      cases exponent with
      | ofNat up =>
          have hvalue : ((significand * Nat.pow 2 up : Nat) : ℚ) =
              significand * 2 ^ Int.ofNat up * (1 : Nat) := by
            rw [Int.ofNat_eq_natCast, zpow_natCast]
            push_cast [Nat.pow_eq]
            ring
          have hbits : (significand * Nat.pow 2 up).log2 < 24 + up := by
            apply log2_lt_of_lt (by omega)
            rw [pow_add]
            exact Nat.mul_lt_mul_of_pos_right hsignificand (Nat.pow_pos (by decide))
          have hlog := floorLog_le (significand * Nat.pow 2 up) 1
          rw [Int.ofNat_eq_natCast] at hvalue hleast hgreatest ⊢
          refine Format.value?_round (by decide) hvalue (by decide) ?_ ?_ ?_ negative <;>
            simp only [binary64] <;> omega
      | negSucc down =>
          have hvalue : (significand : ℚ) =
              significand * 2 ^ Int.negSucc down * (Nat.pow 2 (down + 1) : Nat) := by
            rw [zpow_negSucc]
            push_cast [Nat.pow_eq]
            field_simp
          have hbits := log2_lt_of_lt (by decide) hsignificand
          have hlog := floorLog_le significand (2 ^ (down + 1))
          rw [Nat.log2_two_pow] at hlog
          refine Format.value?_round (Nat.pow_pos (by decide)) hvalue
            (by decide) ?_ ?_ ?_ negative <;>
            simp only [binary64] <;> omega

end LiveTables.Number
