import Mathlib
import LiveTables.Engine.Store
import LiveTables.Table.Descriptor
import LiveTables.Table.Name

/-!
# Names of tables and columns

The name of a table is an identifier, and the names of its columns differ from one another even when
letter case is passed over. Both are what lets the store tell the tables and columns of a cache
apart.
-/

namespace LiveTables

open LiveTables.Text LiveTables.Table

namespace Text

@[simp]
theorem toList_lower (text : String) : (lower text).toList = text.toList.map Char.toLower := by
  simp [lower]

theorem lower_append (left right : String) : lower (left ++ right) = lower left ++ lower right := by
  apply String.toList_injective
  simp

theorem equalIgnoringCase_iff {left right : String} :
    equalIgnoringCase left right = true ↔ lower left = lower right := by
  simp [equalIgnoringCase]

theorem lower_lower (text : String) : lower (lower text) = lower text := by
  apply String.toList_injective
  rw [toList_lower, toList_lower, List.map_map]
  exact List.map_congr_left fun c _ => Char.toLower_toLower_eq_toLower c

theorem toLower_of_not_isAlpha {c : Char} (h : c.isAlpha = false) : c.toLower = c := by
  apply Char.toLower_eq_of_not_isUpper
  intro hupper
  simp [Char.isAlpha, hupper] at h

/-- What is no letter is the lower-case form of itself only. -/
theorem toLower_eq_iff {mark c : Char} (hmark : mark.isAlpha = false) :
    c.toLower = mark ↔ c = mark := by
  constructor
  · intro hlower
    have hc : c.isAlpha = false := by rw [← Char.isAlpha_toLower_eq_isAlpha, hlower, hmark]
    rw [← toLower_of_not_isAlpha hc, hlower]
  · rintro rfl
    exact toLower_of_not_isAlpha hmark

theorem toNat_le_of_isDigit {c : Char} (h : c.isDigit = true) : c.toNat ≤ 57 := by
  simp only [Char.isDigit, Bool.and_eq_true, decide_eq_true_eq, UInt32.le_iff_toNat_le] at h
  exact h.2

theorem isAlpha_of_isDigit {c : Char} (h : c.isDigit = true) : c.isAlpha = false := by
  have hhigh := toNat_le_of_isDigit h
  rw [Bool.eq_false_iff]
  intro halpha
  have hlow : 65 ≤ c.toNat := by
    simp only [Char.isAlpha, Char.isUpper, Char.isLower, Bool.or_eq_true, Bool.and_eq_true,
      decide_eq_true_eq, UInt32.le_iff_toNat_le, ge_iff_le] at halpha
    rcases halpha with ⟨hupper, -⟩ | ⟨hlower, -⟩
    · exact hupper
    · exact le_trans (by decide) hlower
  omega

theorem toLower_of_isDigit {c : Char} (h : c.isDigit) : c.toLower = c :=
  toLower_of_not_isAlpha (isAlpha_of_isDigit h)

theorem isDigit_of_mem_toString {n : Nat} {c : Char} (h : c ∈ (toString n).toList) : c.isDigit := by
  have hdigits : (toString n).toList = Nat.toDigits 10 n := by
    show (Nat.repr n).toList = _
    simp [Nat.repr]
  exact Nat.isDigit_of_mem_toDigits (by decide) (by decide) (hdigits ▸ h)

theorem lower_toString (n : Nat) : lower (toString n) = toString n := by
  apply String.toList_injective
  rw [toList_lower]
  conv_rhs => rw [← List.map_id (toString n).toList]
  exact List.map_congr_left fun c hc => toLower_of_isDigit (isDigit_of_mem_toString hc)

end Text

namespace Table

/-! ### Columns -/

theorem lower_columnName (table : String) (position : Nat) :
    lower (Descriptor.columnName table position) =
      Descriptor.columnName (lower table) position := by
  have hscore : lower "_" = "_" := by decide
  simp only [Descriptor.columnName, lower_append, lower_toString, hscore]

theorem columnName_injective (table : String) :
    Function.Injective (Descriptor.columnName table) := by
  intro first second h
  simp only [Descriptor.columnName] at h
  have hdigits : toString first = toString second := by
    apply String.toList_injective
    simpa using congrArg String.toList h
  exact Nat.repr_inj.1 hdigits

theorem equalIgnoringCase_columnName {table : String} {first second : Nat} :
    equalIgnoringCase (Descriptor.columnName table first)
      (Descriptor.columnName table second) = true ↔ first = second := by
  rw [equalIgnoringCase_iff, lower_columnName, lower_columnName]
  exact (columnName_injective (lower table)).eq_iff

/-! ### Identifiers -/

/-- A letter or underscore, and letters, digits and underscores after it. -/
def IsIdentifier (name : String) : Prop :=
  ∃ first rest, name.toList = first :: rest ∧ (first.isAlpha = true ∨ first = '_') ∧
    ∀ c ∈ rest, isWordChar c = true

theorem isWordChar_underscored (c : Char) :
    isWordChar (if isWordChar c then c else '_') = true := by
  split_ifs with h
  · exact h
  · decide

theorem startsIdentifier_of_isWordChar {c : Char} (hword : isWordChar c = true)
    (hdigit : c.isDigit = false) : c.isAlpha = true ∨ c = '_' := by
  simpa [isWordChar, Char.isAlphanum, hdigit] using hword

theorem isIdentifier_of_nameFor? {fileName extension name : String}
    (h : nameFor? fileName extension = some name) : IsIdentifier name := by
  unfold nameFor? at h
  set underscored := (stem fileName extension).toList.map fun c => if isWordChar c then c else '_'
    with hunderscored
  have hword : ∀ c ∈ underscored, isWordChar c = true := by
    intro c hc
    obtain ⟨original, _, rfl⟩ := List.mem_map.1 hc
    exact isWordChar_underscored original
  cases hcases : underscored with
  | nil => simp [hcases] at h
  | cons first rest =>
      rw [hcases] at hword
      simp only [hcases, Option.some.injEq] at h
      subst h
      by_cases hdigit : first.isDigit
      · refine ⟨'t', '_' :: first :: rest, by simp [hdigit], Or.inl (by decide), ?_⟩
        intro c hc
        rcases List.mem_cons.1 hc with rfl | hc
        · decide
        · exact hword c hc
      · have hstart := startsIdentifier_of_isWordChar (hword first List.mem_cons_self)
          (by simpa using hdigit)
        exact ⟨first, rest, by simp [hdigit], hstart,
          fun c hc => hword c (List.mem_cons_of_mem first hc)⟩

theorem IsIdentifier.isWordChar {name : String} (h : IsIdentifier name) {c : Char}
    (hc : c ∈ name.toList) : isWordChar c = true := by
  obtain ⟨first, rest, hlist, hfirst, hrest⟩ := h
  rw [hlist] at hc
  rcases List.mem_cons.1 hc with rfl | hc
  · rcases hfirst with halpha | rfl
    · simp [Text.isWordChar, Char.isAlphanum, halpha]
    · decide
  · exact hrest c hc

theorem IsIdentifier.isEmpty_eq_false {name : String} (h : IsIdentifier name) :
    name.isEmpty = false := by
  obtain ⟨first, rest, hlist, _⟩ := h
  rw [String.isEmpty_eq_false_iff]
  rintro rfl
  simp at hlist

theorem isWordChar_toLower (c : Char) : isWordChar c.toLower = isWordChar c := by
  by_cases hupper : c.isUpper
  · have halpha : c.isAlpha = true := by simp [Char.isAlpha, hupper]
    have hlower : c.toLower.isAlpha = true := by rw [Char.isAlpha_toLower_eq_isAlpha, halpha]
    simp [isWordChar, Char.isAlphanum, halpha, hlower]
  · rw [Char.toLower_eq_of_not_isUpper (by simpa using hupper)]

theorem isEmpty_lower (text : String) : (lower text).isEmpty = text.isEmpty := by
  rw [Bool.eq_iff_iff, String.isEmpty_iff, String.isEmpty_iff, ← String.toList_inj,
    ← String.toList_inj, toList_lower]
  simp

/-- Any spelling of an identifier is made of word characters. -/
theorem IsIdentifier.isWordChar_of_lower_eq {name spelled : String} (h : IsIdentifier name)
    (hsame : lower spelled = lower name) {c : Char} (hc : c ∈ spelled.toList) :
    Text.isWordChar c = true := by
  have hlower : c.toLower ∈ name.toList.map Char.toLower := by
    rw [← toList_lower, ← hsame, toList_lower]
    exact List.mem_map_of_mem hc
  obtain ⟨other, hother, heq⟩ := List.mem_map.1 hlower
  rw [← isWordChar_toLower, ← heq, isWordChar_toLower]
  exact h.isWordChar hother

theorem IsIdentifier.isEmpty_of_lower_eq {name spelled : String} (h : IsIdentifier name)
    (hsame : lower spelled = lower name) : spelled.isEmpty = false := by
  rw [← isEmpty_lower, hsame, isEmpty_lower, h.isEmpty_eq_false]

end Table

end LiveTables
