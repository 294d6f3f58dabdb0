import LiveTables.Field
import LiveTables.Proofs.Numerals
import LiveTables.Proofs.TextRuns
import Mathlib

/-!
# Fields of integer columns

What a field of an integer column holds depends on what is left of it without the characters around
it that are passed over: nothing is a missing value, the spelling of a whole number of 64 bits is
that number, and all else is refused. The characters passed over are those of Unicode's White_Space
property. Passing over the ASCII ones only would make no difference exactly for the fields that have
no other white space at their ends, and for those that are refused either way.
-/

namespace LiveTables

namespace Text

/-- The white space among the ASCII characters, without the vertical tab. -/
def isAsciiBlank (c : Char) : Bool :=
  c == ' ' || c == '\t' || c == '\n' || c == '\x0c' || c == '\r'

theorem isBlank_of_isAsciiBlank {c : Char} (h : isAsciiBlank c = true) : isBlank c = true := by
  simp only [isAsciiBlank, Bool.or_eq_true, beq_iff_eq] at h
  rcases h with (((rfl | rfl) | rfl) | rfl) | rfl <;> decide

end Text

namespace Number

/-! ### Whole numbers as they are spelled -/

/-- The number that digits stand for in base ten, the last digit at the place of the ones. -/
def placeValue (digits : List Char) : Nat := Nat.ofDigits 10 (digits.reverse.map digitValue)

/-- One or more ASCII digits. -/
structure IsNumeral (digits : List Char) : Prop where
  nonempty : digits ≠ []
  digits : ∀ c ∈ digits, '0' ≤ c ∧ c ≤ '9'

/-- A text spells a whole number: one sign or none, and digits. -/
inductive Spells : List Char → Int → Prop
  | unsigned {digits : List Char} (h : IsNumeral digits) : Spells digits (placeValue digits)
  | plus {digits : List Char} (h : IsNumeral digits) : Spells ('+' :: digits) (placeValue digits)
  | minus {digits : List Char} (h : IsNumeral digits) : Spells ('-' :: digits) (-placeValue digits)

theorem digitsValue_eq_placeValue (digits : List Char) :
    digitsValue digits = placeValue digits := by
  induction digits using List.reverseRecOn with
  | nil => rfl
  | append_singleton digits c ih =>
      calc digitsValue (digits ++ [c]) = 10 * digitsValue digits + digitValue c := by
            simp [digitsValue]
        _ = digitValue c + 10 * placeValue digits := by rw [ih, Nat.add_comm]
        _ = placeValue (digits ++ [c]) := by
            rw [placeValue, placeValue, List.reverse_append, List.reverse_singleton,
              List.singleton_append, List.map_cons, Nat.ofDigits_cons]

namespace IsNumeral

variable {digits : List Char}

theorem isDigit (h : IsNumeral digits) : ∀ c ∈ digits, Number.isDigit c = true := by
  intro c hc
  simpa [Number.isDigit] using h.digits c hc

theorem isBlank_eq_false {c : Char} (h : IsNumeral digits) (hc : c ∈ digits) :
    Text.isBlank c = false := by
  obtain ⟨hlow, hhigh⟩ := h.digits c hc
  have hlow' : 48 ≤ c.toNat := hlow
  have hhigh' : c.toNat ≤ 57 := hhigh
  simp only [Text.isBlank, Bool.or_eq_false_iff, Bool.and_eq_false_iff, decide_eq_false_iff_not,
    beq_eq_false_iff_ne]
  omega

theorem readInteger?_eq {text : List Char} {negative : Bool} (h : IsNumeral digits)
    (hsign : readSign text = (negative, digits)) :
    readInteger? text = some (signed negative (placeValue digits)) := by
  have hall : digits.all Number.isDigit = true := List.all_eq_true.2 h.isDigit
  simp [readInteger?, hsign, h.nonempty, hall, digitsValue_eq_placeValue]

end IsNumeral

theorem isNumeral_of_readInteger? {text digits : List Char} {negative : Bool} {n : Int}
    (hsign : readSign text = (negative, digits)) (h : readInteger? text = some n) :
    IsNumeral digits := by
  simp only [readInteger?, hsign] at h
  split_ifs at h with hbad
  rw [Bool.or_eq_true, not_or, Bool.not_eq_true', Bool.not_eq_false, List.all_eq_true] at hbad
  exact ⟨by simpa using hbad.1, fun c hc => by simpa [isDigit] using hbad.2 c hc⟩

theorem readInteger?_eq_some_iff {text : List Char} {n : Int} :
    readInteger? text = some n ↔ Spells text n := by
  constructor
  · intro hread
    cases hsign : readSign text with
    | mk negative digits =>
        have hnumeral := isNumeral_of_readInteger? hsign hread
        obtain rfl : signed negative (placeValue digits) = n :=
          Option.some.inj ((hnumeral.readInteger?_eq hsign).symm.trans hread)
        unfold readSign at hsign
        split at hsign <;> obtain ⟨rfl, rfl⟩ := Prod.mk.inj hsign
        · exact .minus hnumeral
        · exact .plus hnumeral
        · exact .unsigned hnumeral
  · intro hspells
    cases hspells with
    | unsigned h => exact h.readInteger?_eq (readSign_digits h.isDigit)
    | @plus digits h =>
        have hsign : readSign ('+' :: digits) = (false, digits) := rfl
        exact h.readInteger?_eq hsign
    | @minus digits h =>
        have hsign : readSign ('-' :: digits) = (true, digits) := rfl
        exact h.readInteger?_eq hsign

namespace Spells

variable {text : List Char} {n : Int}

theorem ne_nil (h : Spells text n) : text ≠ [] := by
  cases h with
  | unsigned h => exact h.nonempty
  | plus h => exact List.cons_ne_nil _ _
  | minus h => exact List.cons_ne_nil _ _

/-- There is no white space in the spelling of a number. -/
theorem isBlank_eq_false (h : Spells text n) : ∀ c ∈ text, Text.isBlank c = false := by
  intro c hc
  cases h with
  | unsigned h => exact h.isBlank_eq_false hc
  | plus h =>
      rcases List.mem_cons.1 hc with rfl | hc
      · decide
      · exact h.isBlank_eq_false hc
  | minus h =>
      rcases List.mem_cons.1 hc with rfl | hc
      · decide
      · exact h.isBlank_eq_false hc

end Spells

theorem isNumeral_toString (n : Nat) : IsNumeral (toString n).toList where
  nonempty := digits_ne_nil n
  digits := fun c hc => by simpa [isDigit] using isDigit_of_mem_digits hc

theorem spells_toString (n : Int) : Spells (toString n).toList n := by
  have hvalue : ∀ m : Nat, placeValue (toString m).toList = m := fun m => by
    rw [← digitsValue_eq_placeValue, digitsValue_toString]
  cases n with
  | ofNat m =>
      have hspells := Spells.unsigned (isNumeral_toString m)
      rwa [hvalue] at hspells
  | negSucc m =>
      have hspells := Spells.minus (isNumeral_toString (m + 1))
      have htext : (toString (Int.negSucc m)).toList = '-' :: (toString (m + 1)).toList :=
        String.toList_append
      rwa [hvalue, ← htext] at hspells

theorem isWord_iff_pow {n : Int} : isWord n = true ↔ -2 ^ 63 ≤ n ∧ n ≤ 2 ^ 63 - 1 := by
  rw [isWord, Bool.and_eq_true, decide_eq_true_eq, decide_eq_true_eq]
  rfl

end Number

open Number Text

namespace ColumnType

/-! ### What an integer column holds -/

theorem isBlankField_iff {field : String} :
    isBlankField field = true ↔ strip isBlank field.toList = [] := by
  rw [isBlankField, List.all_eq_true, strip_eq_nil_iff]

/-- The spelling of a whole number of 64 bits. -/
def SpellsWord (text : List Char) (n : Int) : Prop := Spells text n ∧ -2 ^ 63 ≤ n ∧ n ≤ 2 ^ 63 - 1

theorem readWord?_eq_some_iff {field : String} {n : Int} :
    readWord? field = some n ↔ SpellsWord (strip isBlank field.toList) n := by
  rw [readWord?, Option.filter_eq_some_iff, readInteger?_eq_some_iff, isWord_iff_pow]
  rfl

theorem readWord?_eq_none_iff {field : String} :
    readWord? field = none ↔ ∀ n, ¬ SpellsWord (strip isBlank field.toList) n := by
  simp only [Option.eq_none_iff_forall_ne_some, ne_eq, readWord?_eq_some_iff]

/-- The rules for a field of an integer column, `around` being what is passed over on both sides. -/
structure IntegerRules (around : Char → Bool) (field : String) : Prop where
  missing : integer.coerce field = some .null ↔ strip around field.toList = []
  number : ∀ n, integer.coerce field = some (.integer n) ↔ SpellsWord (strip around field.toList) n
  refused : integer.coerce field = none ↔
    strip around field.toList ≠ [] ∧ ∀ n, ¬ SpellsWord (strip around field.toList) n
  inferred : infer field = integer ↔ ∃ n, integer.coerce field = some (.integer n)

theorem infer_eq_integer_iff {field : String} :
    infer field = integer ↔ (readWord? field).isSome = true := by
  unfold infer
  split_ifs <;> simp_all

theorem integerRules_isBlank (field : String) : IntegerRules isBlank field := by
  by_cases hblank : isBlankField field = true
  · have hnil := isBlankField_iff.1 hblank
    have hnot : ∀ n, ¬ SpellsWord [] n := fun n h => h.1.ne_nil rfl
    have hread : readWord? field = none := readWord?_eq_none_iff.2 (hnil ▸ hnot)
    constructor <;> simp [coerce, infer_eq_integer_iff, hblank, hnil, hnot, hread]
  · have hne : strip isBlank field.toList ≠ [] := fun hnil => hblank (isBlankField_iff.2 hnil)
    constructor
    case missing => simp [coerce, hblank, hne]
    case number => simp [coerce, hblank, readWord?_eq_some_iff]
    case refused => simp [coerce, hblank, hne, readWord?_eq_none_iff]
    case inferred => simp [coerce, hblank, infer_eq_integer_iff, Option.isSome_iff_exists]

/-- A narrower class of characters to pass over has the same rules exactly for the fields that it
leaves the same of, and for those that are refused. -/
theorem integerRules_iff_of_narrower {around : Char → Bool}
    (hnarrower : ∀ c, around c = true → isBlank c = true) {field : String} :
    IntegerRules around field ↔
      strip around field.toList = strip isBlank field.toList ∨ integer.coerce field = none := by
  have hrules := integerRules_isBlank field
  have hsame : ∀ n, SpellsWord (strip around field.toList) n →
      strip around field.toList = strip isBlank field.toList := by
    intro n hn
    refine (strip_eq_of_wider hnarrower ?_ ?_).symm
    · exact fun c hc => hn.1.isBlank_eq_false c (List.mem_of_mem_head? hc)
    · exact fun c hc => hn.1.isBlank_eq_false c (List.mem_of_mem_getLast? hc)
  constructor
  · intro hnarrow
    cases hvalue : integer.coerce field with
    | none => exact Or.inr rfl
    | some value =>
        left
        by_cases hnil : strip isBlank field.toList = []
        · rw [hnil]
          exact hnarrow.missing.1 (hrules.missing.2 hnil)
        · have hspells : ∃ n, SpellsWord (strip isBlank field.toList) n := by
            by_contra hnone
            exact absurd (hrules.refused.2 ⟨hnil, not_exists.1 hnone⟩) (by simp [hvalue])
          obtain ⟨n, hn⟩ := hspells
          exact hsame n ((hnarrow.number n).1 ((hrules.number n).2 hn))
  · rintro (heq | hnone)
    · exact ⟨heq ▸ hrules.missing, fun n => heq ▸ hrules.number n, heq ▸ hrules.refused,
        hrules.inferred⟩
    · obtain ⟨hne, hnot⟩ := hrules.refused.1 hnone
      have hne' : strip around field.toList ≠ [] := by
        intro hnil
        refine hne (strip_eq_nil_iff.2 fun c hc => hnarrower c (strip_eq_nil_iff.1 hnil c hc))
      have hnot' : ∀ n, ¬ SpellsWord (strip around field.toList) n :=
        fun n hn => hnot n (hsame n hn ▸ hn)
      constructor <;> simp [hnone, hne', hnot', hrules.inferred]

/-- A field of an integer column follows the rules with all white space around it passed over. It
follows them with only the ASCII white space passed over unless it has other white space at its ends
and is not refused. -/
theorem integerRules_of_field (field : String) : IntegerRules isBlank field ∧
    (IntegerRules isAsciiBlank field ↔
      strip isAsciiBlank field.toList = strip isBlank field.toList ∨
      integer.coerce field = none) :=
  ⟨integerRules_isBlank field, integerRules_iff_of_narrower fun _ => isBlank_of_isAsciiBlank⟩

/-- A no-break space in front of a digit is passed over, though it is not an ASCII character. -/
theorem not_integerRules_of_noBreakSpace : ¬ IntegerRules isAsciiBlank "\u00a07" := by
  intro h
  have hvalue : integer.coerce "\u00a07" = some (.integer 7) := by cbv
  have hspells := ((h.number 7).1 hvalue).1
  have hstrip : strip isAsciiBlank "\u00a07".toList = ['\u00a0', '7'] := by decide
  rw [hstrip] at hspells
  exact absurd (hspells.isBlank_eq_false '\u00a0' List.mem_cons_self) (by decide)

end ColumnType

end LiveTables
