import Mathlib
import LiveTables.Table.Batch

/-!
# Data rows and their values

A data row has at least one field, so a first row always suggests columns. Rows become a batch
exactly when each of them can be read and its fields fit the types of the columns one by one, and
the batch then holds their values in the order of the file.
-/

namespace LiveTables

namespace Record

/-! ### Rows have fields -/

theorem ne_nil_of_scan {delimiter : UInt8} {phase : Phase} {field : List UInt8}
    {fields found : Fields} {position : Position} {text : List UInt8}
    (h : (scan delimiter phase field fields position text).1 = some found) : found ≠ [] := by
  induction text generalizing phase field fields position with
  | nil => cases phase <;> simp [scan] at h <;> simp [← h]
  | cons b rest ih =>
      unfold scan at h
      split at h
      · exact ih h
      · exact ih h
      · exact ih h
      · simp only [Option.some.injEq] at h
        simp [← h]

theorem fields_ne_nil_of_mem_recordsFrom {delimiter : UInt8} {position : Position}
    {text : List UInt8} {record : Scanned} (h : record ∈ recordsFrom delimiter position text) :
    record.fields ≠ [] := by
  fun_induction recordsFrom delimiter position text with
  | case1 => simp at h
  | case2 position text fields next rest hscan ih =>
      rcases List.mem_cons.1 h with rfl | h
      · exact ne_nil_of_scan (congrArg Prod.fst hscan)
      · exact ih h

theorem fields_ne_nil_of_mem_records {delimiter : UInt8} {text : List UInt8} {record : Scanned}
    (h : record ∈ records delimiter text) : record.fields ≠ [] := by
  unfold records at h
  split at h
  · split at h
    · simp at h
    · rename_i first more hrecords
      have hfrom : ∀ other ∈ first :: more, other.fields ≠ [] := fun other hother =>
        fields_ne_nil_of_mem_recordsFrom (hrecords ▸ hother)
      rcases List.mem_cons.1 h with rfl | h
      · exact hfrom first List.mem_cons_self
      · exact hfrom record (List.mem_cons_of_mem _ h)
  · exact fields_ne_nil_of_mem_recordsFrom h

theorem length_of_decodeFields {index : Nat} {fields : Fields} {texts : List String}
    (h : decodeFields index fields = .ok texts) : texts.length = fields.length := by
  induction fields generalizing index texts with
  | nil =>
      simp only [decodeFields, Except.ok.injEq] at h
      simp [← h]
  | cons field rest ih =>
      rw [decodeFields] at h
      split at h
      · cases h
      · cases hrest : decodeFields (index + 1) rest with
        | error fault => simp [hrest, Except.map] at h
        | ok others =>
            simp only [hrest, Except.map, Except.ok.injEq] at h
            simp [← h, ih hrest]

theorem fields_ne_nil_of_decodeRow {before : Position} {record : Scanned} {row : Row}
    (hrecord : record.fields ≠ []) (h : decodeRow before record = .ok row) : row.fields ≠ [] := by
  unfold decodeRow at h
  split at h
  · rename_i fields hfields
    obtain rfl := Except.ok.inj h
    rw [← List.length_pos_iff] at hrecord ⊢
    rwa [length_of_decodeFields hfields]
  · cases h

theorem fields_ne_nil_of_mem_rows {format : Format} {text : List UInt8} {row : Row}
    (h : .ok row ∈ format.rows text) : row.fields ≠ [] := by
  have hrecords : ∀ record ∈ records format.delimiter text, record.fields ≠ [] :=
    fun record hrecord => fields_ne_nil_of_mem_records hrecord
  unfold Format.rows at h
  dsimp only at h
  split_ifs at h
  · split at h
    · rename_i header first more hsplit
      rw [hsplit] at hrecords
      rcases List.mem_cons.1 h with hfirst | h
      · exact fields_ne_nil_of_decodeRow (hrecords first (by simp)) hfirst.symm
      · obtain ⟨record, hrecord, hrow⟩ := List.mem_map.1 h
        exact fields_ne_nil_of_decodeRow (hrecords record (by simp [hrecord])) hrow
    · simp at h
  · obtain ⟨record, hrecord, hrow⟩ := List.mem_map.1 h
    exact fields_ne_nil_of_decodeRow (hrecords record hrecord) hrow

end Record

namespace Table

/-! ### Values of fields -/

/-- The values of fields under columns of the given types, one by one. -/
inductive Converted : List ColumnType → List String → List Value → Prop
  | nil : Converted [] [] []
  | cons {type : ColumnType} {field : String} {value : Value} {types : List ColumnType}
      {fields : List String} {values : List Value} (hvalue : type.coerce field = some value)
      (hrest : Converted types fields values) :
      Converted (type :: types) (field :: fields) (value :: values)

/-- The values of a row that can be read. -/
def RowValues (types : List ColumnType) {α : Type} (item : Except α Record.Row)
    (values : List Value) : Prop :=
  ∃ row, item = .ok row ∧ Converted types row.fields values

/-- There is one field for each type, and it can be converted to that type. -/
structure Fits (types : List ColumnType) (fields : List String) : Prop where
  width : fields.length = types.length
  coerces : ∀ (position : Nat) type field, types[position]? = some type →
    fields[position]? = some field → (type.coerce field).isSome

theorem fits_nil : Fits [] [] := ⟨rfl, by simp⟩

theorem fits_cons_iff {type : ColumnType} {field : String} {types : List ColumnType}
    {fields : List String} :
    Fits (type :: types) (field :: fields) ↔ (type.coerce field).isSome ∧ Fits types fields := by
  constructor
  · intro h
    refine ⟨h.coerces 0 type field rfl rfl, by simpa using h.width, ?_⟩
    intro position other raw hother hraw
    exact h.coerces (position + 1) other raw hother hraw
  · rintro ⟨hfirst, hrest⟩
    refine ⟨by simpa using hrest.width, ?_⟩
    intro position other raw hother hraw
    cases position with
    | zero =>
        simp only [List.getElem?_cons_zero, Option.some.injEq] at hother hraw
        exact hother ▸ hraw ▸ hfirst
    | succ position => exact hrest.coerces position other raw hother hraw

theorem exists_converted_iff {types : List ColumnType} {fields : List String} :
    (∃ values, Converted types fields values) ↔ Fits types fields := by
  induction types generalizing fields with
  | nil =>
      cases fields with
      | nil => exact ⟨fun _ => fits_nil, fun _ => ⟨[], .nil⟩⟩
      | cons field fields =>
          constructor
          · rintro ⟨values, h⟩
            cases h
          · intro h
            simpa using h.width
  | cons type types ih =>
      cases fields with
      | nil =>
          constructor
          · rintro ⟨values, h⟩
            cases h
          · intro h
            simpa using h.width
      | cons field fields =>
          rw [fits_cons_iff, ← ih, Option.isSome_iff_exists]
          constructor
          · rintro ⟨values, h⟩
            cases h with
            | cons hvalue hrest => exact ⟨⟨_, hvalue⟩, _, hrest⟩
          · rintro ⟨⟨value, hvalue⟩, values, hrest⟩
            exact ⟨value :: values, .cons hvalue hrest⟩

theorem isSome_coerce_infer (field : String) :
    ((ColumnType.infer field).coerce field).isSome := by
  unfold ColumnType.infer
  split_ifs with hword hreal
  · unfold ColumnType.coerce
    split_ifs <;> simp [hword]
  · unfold ColumnType.coerce
    split_ifs <;> simp [hreal]
  · rfl

/-- A sample fits the types that it suggests. -/
theorem fits_infer (fields : List String) : Fits (fields.map ColumnType.infer) fields := by
  induction fields with
  | nil => exact fits_nil
  | cons field fields ih => exact fits_cons_iff.2 ⟨isSome_coerce_infer field, ih⟩

theorem coerceFields_eq_ok_iff {table : String} {line : Nat} {columns : List Column}
    {fields : List String} {values : List Value} (hlength : fields.length = columns.length) :
    coerceFields table line columns fields = .ok values ↔
      Converted (columns.map (·.type)) fields values := by
  induction columns generalizing fields values with
  | nil =>
      obtain rfl := List.length_eq_zero_iff.1 hlength
      constructor
      · intro h
        obtain rfl := Except.ok.inj h
        exact .nil
      · intro h
        cases h
        rfl
  | cons column columns ih =>
      cases fields with
      | nil => simp at hlength
      | cons field fields =>
          have hrest := @ih fields
          rw [coerceFields, List.map_cons]
          constructor
          · intro h
            cases hvalue : column.type.coerce field with
            | none => simp [hvalue] at h
            | some value =>
                rw [hvalue] at h
                cases hothers : coerceFields table line columns fields with
                | error failure => simp [hothers, Except.map] at h
                | ok others =>
                    simp only [hothers, Except.map, Except.ok.injEq] at h
                    exact h ▸ .cons hvalue ((hrest (by simpa using hlength)).1 hothers)
          · intro h
            cases h with
            | cons hvalue hothers =>
                simp [hvalue, (hrest (by simpa using hlength)).2 hothers, Except.map]

/-- There are values for rows exactly when each of them can be read and fits the types. -/
theorem exists_rowValues_iff {α : Type} {types : List ColumnType}
    {rows : List (Except α Record.Row)} :
    (∃ values, List.Forall₂ (RowValues types) rows values) ↔
      ∀ item ∈ rows, ∃ row, item = .ok row ∧ Fits types row.fields := by
  have hitem : ∀ item : Except α Record.Row, (∃ values, RowValues types item values) ↔
      ∃ row, item = .ok row ∧ Fits types row.fields := by
    intro item
    simp only [RowValues, ← exists_converted_iff]
    exact ⟨fun ⟨values, row, hrow, h⟩ => ⟨row, hrow, values, h⟩,
      fun ⟨row, hrow, values, h⟩ => ⟨values, row, hrow, h⟩⟩
  simp only [← hitem]
  induction rows with
  | nil => simp
  | cons item rows ih =>
      simp only [List.forall₂_cons_left_iff, List.forall_mem_cons, ← ih]
      exact ⟨fun ⟨typed, values, rest, hvalues, hrest, _⟩ => ⟨⟨values, hvalues⟩, rest, hrest⟩,
        fun ⟨⟨values, hvalues⟩, rest, hrest⟩ => ⟨values :: rest, values, rest, hvalues, hrest, rfl⟩⟩

/-! ### Rows of a table -/

namespace Descriptor

theorem typedRow_eq_ok_iff {table : Descriptor} {row : Record.Row} {values : List Value} :
    table.typedRow row = .ok values ↔ Converted table.types row.fields values := by
  have hlength : ∀ {values}, Converted table.types row.fields values →
      row.fields.length = table.columns.length := by
    intro values h
    simpa [types] using (exists_converted_iff.1 ⟨values, h⟩).width
  unfold typedRow
  split_ifs with hwidth
  · constructor
    · intro h
      cases h
    · intro h
      exact absurd (hlength h) (by simpa using hwidth)
  · exact coerceFields_eq_ok_iff (by simpa using hwidth)

theorem typedRows_eq_ok_iff {table : Descriptor} {rows : List (Except Failure Record.Row)}
    {typed : List (List Value)} :
    table.typedRows rows = .ok typed ↔ List.Forall₂ (RowValues table.types) rows typed := by
  induction rows generalizing typed with
  | nil => simp [typedRows, eq_comm]
  | cons item rows ih =>
      rw [List.forall₂_cons_left_iff]
      cases item with
      | error failure => simp [typedRows, RowValues]
      | ok row =>
          rw [typedRows]
          constructor
          · intro h
            cases hvalues : table.typedRow row with
            | error failure => simp [hvalues] at h
            | ok values =>
                rw [hvalues] at h
                cases hrest : table.typedRows rows with
                | error failure => simp [hrest, Except.map] at h
                | ok rest =>
                    simp only [hrest, Except.map, Except.ok.injEq] at h
                    exact ⟨values, rest, ⟨row, rfl, typedRow_eq_ok_iff.1 hvalues⟩, ih.1 hrest,
                      h.symm⟩
          · rintro ⟨values, rest, ⟨other, hother, hvalues⟩, hrest, rfl⟩
            obtain rfl := Except.ok.inj hother
            simp [typedRow_eq_ok_iff.2 hvalues, ih.2 hrest, Except.map]

end Descriptor

end Table

end LiveTables
