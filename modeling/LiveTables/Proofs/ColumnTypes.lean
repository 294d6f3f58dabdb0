import LiveTables.Proofs.DataRows
import LiveTables.Proofs.ExactRounding
import LiveTables.Proofs.IntegerFields
import LiveTables.Proofs.StoredRows

/-!
# Column types and the fields they take

The type that a sample suggests for a column takes the sample again, and not as a missing value.
Each type takes all that the types before it take, in the order integer, real and text: the spelling
of a whole number of 64 bits is a decimal too, and far too small to become an infinity. So a row
keeps on fitting a table when types of its columns are replaced by later ones.
-/

namespace LiveTables

open LiveTables.Number LiveTables.Table LiveTables.Text

namespace Number

/-! ### Whole numbers as floating point numbers -/

theorem isFinite_round {format : Format} {numerator denominator : Nat}
    (hrange : format.leastExponent < format.greatestExponent)
    (hlog : floorLog numerator denominator - (format.precision - 1 : Nat) < format.greatestExponent)
    (negative : Bool) : (format.round negative numerator denominator).isFinite = true := by
  have hexponent : max format.leastExponent
      (floorLog numerator denominator - (format.precision - 1 : Nat)) < format.greatestExponent :=
    max_lt hrange hlog
  unfold Format.round
  generalize max format.leastExponent
    (floorLog numerator denominator - (format.precision - 1 : Nat)) = exponent at hexponent ⊢
  dsimp only
  split_ifs
  · rfl
  · omega
  · rfl
  · omega
  · rfl

theorem isFinite_round_one {n : Nat} (hn : n.log2 < 1023) (negative : Bool) :
    (binary64.round negative n 1).isFinite = true := by
  have hfloor := floorLog_le n 1
  refine isFinite_round (by decide) ?_ negative
  simp only [binary64]
  omega

/-- A whole number of 64 bits has far fewer digits than a decimal may have. -/
theorem isFinite_ofDecimal {n : Nat} (hn : n ≤ 2 ^ 63) (negative : Bool) :
    (binary64.ofDecimal ⟨negative, n, 0⟩).isFinite = true := by
  by_cases hzero : n = 0
  · subst hzero
    rfl
  · have hlength : (toString n).length ≤ 19 := Nat.repr_length n 19 (by decide) (by omega)
    have hlog : n.log2 < 1023 := lt_trans ((Nat.log2_lt hzero).2 (by omega : n < 2 ^ 64))
      (by decide)
    have hround : binary64.ofDecimal ⟨negative, n, 0⟩ = binary64.round negative n 1 := by
      unfold Format.ofDecimal decimalLimit
      dsimp only
      rw [if_neg, if_neg]
      · simp
      · omega
      · simp [hzero]
    rw [hround]
    exact isFinite_round_one hlog negative

theorem readUnsigned?_of_isNumeral {digits : List Char} (h : IsNumeral digits) :
    readUnsigned? digits = some (placeValue digits, 0) := by
  simp [readUnsigned?, spanDigits_digits h.isDigit, h.nonempty, readExponent?,
    digitsValue_eq_placeValue]

theorem Spells.readDecimal?_eq {text : List Char} {n : Int} (h : Spells text n) :
    ∃ negative, readDecimal? text = some ⟨negative, n.natAbs, 0⟩ := by
  cases h with
  | unsigned h =>
      exact ⟨false, by simp [readDecimal?, readSign_digits h.isDigit, readUnsigned?_of_isNumeral h]⟩
  | plus h => exact ⟨false, by simp [readDecimal?, readSign, readUnsigned?_of_isNumeral h]⟩
  | minus h => exact ⟨true, by simp [readDecimal?, readSign, readUnsigned?_of_isNumeral h]⟩

end Number

namespace ColumnType

/-! ### From one type to the next -/

theorem isSome_readReal? {field : String} {n : Int} (h : readWord? field = some n) :
    (readReal? field).isSome = true := by
  obtain ⟨hspells, hlow, hhigh⟩ := readWord?_eq_some_iff.1 h
  obtain ⟨negative, hdecimal⟩ := hspells.readDecimal?_eq
  have hfinite := isFinite_ofDecimal (n := n.natAbs) (by omega) negative
  have hread : binary64.read? (trim field.toList) =
      some (binary64.ofDecimal ⟨negative, n.natAbs, 0⟩) := by
    change binary64.read? (strip isBlank field.toList) = _
    rw [Format.read?, hdecimal]
  rw [readReal?, hread, Option.filter_some, if_pos hfinite]
  rfl

theorem coerce_eq_null_iff {type : ColumnType} {field : String} :
    type.coerce field = some .null ↔ type ≠ text ∧ isBlankField field = true := by
  cases type <;> unfold coerce <;> split_ifs <;> simp_all

theorem isSome_coerce_real {field : String} (h : (integer.coerce field).isSome = true) :
    (real.coerce field).isSome = true := by
  unfold coerce at h ⊢
  split_ifs at h ⊢ with hblank
  · rfl
  · rw [Option.isSome_map, Option.isSome_iff_exists] at h
    obtain ⟨n, hn⟩ := h
    rw [Option.isSome_map]
    exact isSome_readReal? hn

/-- A type takes the place of another one, in the order integer, real and text. -/
inductive Widens : ColumnType → ColumnType → Prop
  | same (type : ColumnType) : Widens type type
  | real : Widens integer real
  | text (type : ColumnType) : Widens type text

theorem Widens.isSome_coerce {type wider : ColumnType} (h : Widens type wider) {field : String}
    (hvalue : (type.coerce field).isSome = true) : (wider.coerce field).isSome = true := by
  cases h with
  | same => exact hvalue
  | real => exact isSome_coerce_real hvalue
  | text => rfl

/-! ### Suggested types -/

theorem infer_of_isBlankField {field : String} (h : isBlankField field = true) :
    infer field = text := by
  have hnil : trim field.toList = [] := isBlankField_iff.1 h
  have hword : readWord? field = none := by
    rw [readWord?, hnil]
    rfl
  have hreal : readReal? field = none := by
    rw [readReal?, hnil]
    decide
  simp [infer, hword, hreal]

theorem coerce_infer_ne_null (field : String) : (infer field).coerce field ≠ some .null := by
  intro hnull
  obtain ⟨htext, hblank⟩ := coerce_eq_null_iff.1 hnull
  exact htext (infer_of_isBlankField hblank)

/-- The types in the order in which they are tried. -/
def preference : List ColumnType := [integer, real, text]

theorem find?_preference {field : String} (h : isBlankField field = false) :
    preference.find? (fun type => (type.coerce field).isSome) = some (infer field) := by
  simp only [preference, List.find?, coerce, h, Bool.false_eq_true, ↓reduceIte, Option.isSome_map,
    Option.isSome_some, infer]
  split_ifs with hword hreal <;> simp_all

end ColumnType

namespace Table

/-! ### Rows under wider types -/

theorem Fits.widen {types wider : List ColumnType} (h : List.Forall₂ ColumnType.Widens types wider)
    {fields : List String} (hfits : Fits types fields) : Fits wider fields := by
  induction h generalizing fields with
  | nil => exact hfits
  | cons hfirst _ ih =>
      cases fields with
      | nil => simpa using hfits.width
      | cons field fields =>
          obtain ⟨hvalue, hrest⟩ := fits_cons_iff.1 hfits
          exact fits_cons_iff.2 ⟨hfirst.isSome_coerce hvalue, ih hrest⟩

theorem Descriptor.exists_typedRow_iff {table : Descriptor} {row : Record.Row} :
    (∃ values, table.typedRow row = .ok values) ↔ Fits table.types row.fields := by
  simp only [typedRow_eq_ok_iff, exists_converted_iff]

theorem Converted.null_notMem {fields : List String} {values : List Value}
    (h : Converted (fields.map ColumnType.infer) fields values) : Value.null ∉ values := by
  induction fields generalizing values with
  | nil =>
      cases h
      exact List.not_mem_nil
  | cons field fields ih =>
      cases h with
      | cons hvalue hrest =>
          rw [List.mem_cons, not_or]
          refine ⟨?_, ih hrest⟩
          rintro rfl
          exact ColumnType.coerce_infer_ne_null field hvalue

theorem Descriptor.types_ofTypes (name : String) (types : List ColumnType) :
    (ofTypes name types).types = types := by
  simp [Descriptor.types, ofTypes, Function.comp_def]

end Table

namespace ColumnType

/-- How the types that are suggested for fields and the types that take them go together. -/
structure TypeRules : Prop where
  /-- A sample row suggests a table that it fits, with no missing value. -/
  sampled : ∀ (name : String) (sample : List String), sample ≠ [] →
    ∃ table, Descriptor.infer name sample = .ok table ∧
      ∀ line, ∃ values, table.typedRow ⟨line, sample⟩ = .ok values ∧ Value.null ∉ values
  integerReal : ∀ field, (integer.coerce field).isSome = true → (real.coerce field).isSome = true
  realText : ∀ field, (real.coerce field).isSome = true → (text.coerce field).isSome = true
  missing : ∀ field, integer.coerce field = some .null ↔ real.coerce field = some .null
  /-- A row that fits a table fits every table with the types of its columns or wider ones. -/
  widened : ∀ table wider : Descriptor, List.Forall₂ Widens table.types wider.types →
    ∀ row, (∃ values, table.typedRow row = .ok values) → ∃ values, wider.typedRow row = .ok values
  /-- The first type that takes a field is suggested for it, unless it is blank. -/
  first : ∀ field, isBlankField field = false →
    preference.find? (fun type => (type.coerce field).isSome) = some (infer field)
  blank : ∀ field, isBlankField field = true → infer field = text

theorem typeRules : TypeRules where
  sampled := by
    intro name sample hne
    refine ⟨_, Descriptor.infer_eq_ok_iff.2 ⟨hne, rfl⟩, fun line => ?_⟩
    obtain ⟨values, hvalues⟩ := exists_converted_iff.2 (fits_infer sample)
    refine ⟨values, Descriptor.typedRow_eq_ok_iff.2 ?_, hvalues.null_notMem⟩
    rwa [Descriptor.types_ofTypes]
  integerReal := fun _ => isSome_coerce_real
  realText := fun _ _ => rfl
  missing := fun field => by simp [coerce_eq_null_iff]
  widened := by
    intro table wider hwider row hrow
    rw [Descriptor.exists_typedRow_iff] at hrow ⊢
    exact hrow.widen hwider
  first := fun _ => find?_preference
  blank := fun _ => infer_of_isBlankField

/-- A row with a field of each type and a blank one, a number at the end of its range among them. -/
theorem typeRules_of_mixed_row :
    (∃ table, Descriptor.infer "t" ["-9223372036854775808", " 2.5", "\u00a0", "x"] = .ok table ∧
      ∀ line, ∃ values, table.typedRow ⟨line, ["-9223372036854775808", " 2.5", "\u00a0", "x"]⟩ =
        .ok values ∧ Value.null ∉ values) ∧
    (∃ values, (Descriptor.ofTypes "w" [real, text]).typedRow
      ⟨2, ["-9223372036854775808", "2.5"]⟩ = .ok values) ∧
    preference.find? (fun type => (type.coerce " 2.5").isSome) = some (infer " 2.5") ∧
    infer "\u00a0" = text := by
  have hwider : List.Forall₂ Widens (Descriptor.ofTypes "t" [integer, real]).types
      (Descriptor.ofTypes "w" [real, text]).types := by
    rw [Descriptor.types_ofTypes, Descriptor.types_ofTypes]
    exact .cons .real (.cons (.text real) .nil)
  have hnarrow : ∃ values, (Descriptor.ofTypes "t" [integer, real]).typedRow
      ⟨2, ["-9223372036854775808", "2.5"]⟩ = .ok values := by
    have hfields : Fits [integer, real] ["-9223372036854775808", "2.5"] :=
      fits_infer ["-9223372036854775808", "2.5"]
    rwa [Descriptor.exists_typedRow_iff, Descriptor.types_ofTypes]
  exact ⟨typeRules.sampled "t" _ (List.cons_ne_nil _ _), typeRules.widened _ _ hwider _ hnarrow,
    typeRules.first " 2.5" (by decide), typeRules.blank "\u00a0" (by decide)⟩

end ColumnType

end LiveTables
