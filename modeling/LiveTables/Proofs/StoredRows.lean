import LiveTables.Proofs.ListedColumns
import LiveTables.Proofs.StatementText
import LiveTables.Table.Batch

/-!
# Typed rows are stored as they are

A table of the cache has columns that are named by position, so no two of them are one column to the
store. The values that fields are converted to are values that their columns hold without a further
conversion.
-/

namespace LiveTables.Table

open LiveTables.Engine LiveTables.Sql LiveTables.Text

namespace Descriptor

/-- A descriptor with an identifier for its name and columns that are named by position. -/
structure WellFormed (table : Descriptor) : Prop where
  identifier : IsIdentifier table.name
  nonempty : table.columns ≠ []
  named : ∀ position column, table.columns[position]? = some column →
    column.name = columnName table.name position

/-- A descriptor with a name that the store can read and columns that are named by position. -/
structure Positional (table : Descriptor) : Prop where
  readable : IsReadable table.name
  nonempty : table.columns ≠ []
  named : ∀ position column, table.columns[position]? = some column →
    column.name = columnName table.name position

def columnDefs (table : Descriptor) : List ColumnDef :=
  table.columns.map fun column => columnDef (column.name, column.type.sqlType)

theorem named_ofTypes (name : String) (types : List ColumnType) (position : Nat) (column : Column)
    (hcolumn : (ofTypes name types).columns[position]? = some column) :
    column.name = columnName name position := by
  simp only [ofTypes, List.getElem?_map, List.getElem?_zipIdx, Option.map_map,
    Option.map_eq_some_iff, Function.comp_apply] at hcolumn
  obtain ⟨type, _, rfl⟩ := hcolumn
  simp

theorem columns_ofTypes_ne_nil (name : String) {types : List ColumnType} (hne : types ≠ []) :
    (ofTypes name types).columns ≠ [] := by
  simpa [ofTypes] using hne

theorem wellFormed_ofTypes {name : String} {types : List ColumnType} (hname : IsIdentifier name)
    (hne : types ≠ []) : (ofTypes name types).WellFormed :=
  ⟨hname, columns_ofTypes_ne_nil name hne, named_ofTypes name types⟩

theorem positional_ofTypes {name : String} {types : List ColumnType} (hname : IsReadable name)
    (hne : types ≠ []) : (ofTypes name types).Positional :=
  ⟨hname, columns_ofTypes_ne_nil name hne, named_ofTypes name types⟩

theorem infer_eq_ok_iff {name : String} {sample : List String} {table : Descriptor} :
    infer name sample = .ok table ↔
      sample ≠ [] ∧ table = ofTypes name (sample.map ColumnType.infer) := by
  cases sample with
  | nil => simp [infer]
  | cons field sample => simp [infer, eq_comm]

theorem wellFormed_of_infer {name : String} {sample : List String} {table : Descriptor}
    (hname : IsIdentifier name) (h : infer name sample = .ok table) : table.WellFormed := by
  obtain ⟨hne, rfl⟩ := infer_eq_ok_iff.1 h
  exact wellFormed_ofTypes hname (by simpa using hne)

theorem WellFormed.markClean {table : Descriptor} (h : table.WellFormed) :
    table.markClean.WellFormed := ⟨h.identifier, h.nonempty, h.named⟩

theorem WellFormed.markDirty {table : Descriptor} (h : table.WellFormed) :
    table.markDirty.WellFormed := ⟨h.identifier, h.nonempty, h.named⟩

theorem Positional.nodup_names {table : Descriptor} (h : table.Positional) :
    (table.columnNames.map lower).Nodup := by
  rw [columnNames, List.Nodup, List.map_map, List.pairwise_map, List.pairwise_iff_getElem]
  intro first second hfirst hsecond hlt
  have hfirst' := h.named first _ (List.getElem?_eq_getElem hfirst)
  have hsecond' := h.named second _ (List.getElem?_eq_getElem hsecond)
  rw [Function.comp_apply, Function.comp_apply, hfirst', hsecond', ne_eq, ← equalIgnoringCase_iff,
    equalIgnoringCase_columnName]
  omega

theorem Positional.columnNames_ne_nil {table : Descriptor} (h : table.Positional) :
    table.columnNames ≠ [] := by
  simpa [columnNames] using h.nonempty

theorem Positional.isReadable_columnName {table : Descriptor} (h : table.Positional)
    {column : String} (hcolumn : column ∈ table.columnNames) : IsReadable column := by
  obtain ⟨original, horiginal, rfl⟩ := List.mem_map.1 hcolumn
  obtain ⟨position, hposition⟩ := List.mem_iff_getElem?.1 horiginal
  rw [h.named position original hposition, columnName]
  have hdigits : '\x00' ∉ (toString position).toList := fun hnull =>
    absurd (isDigit_of_mem_toString hnull) (by decide)
  constructor
  · rw [String.isEmpty_eq_false_iff]
    intro hempty
    simpa using congrArg String.toList hempty
  · simp only [String.toList_append, List.mem_append, not_or]
    exact ⟨⟨h.readable.2, by decide⟩, hdigits⟩

theorem WellFormed.isReadable_of_lower_eq {table : Descriptor} (h : table.WellFormed)
    {spelled : String} (hsame : lower spelled = lower table.name) : IsReadable spelled := by
  refine ⟨h.identifier.isEmpty_of_lower_eq hsame, fun hnull => ?_⟩
  exact absurd (h.identifier.isWordChar_of_lower_eq hsame hnull) (by decide)

theorem WellFormed.positional {table : Descriptor} (h : table.WellFormed) : table.Positional :=
  ⟨h.isReadable_of_lower_eq rfl, h.nonempty, h.named⟩

end Descriptor

/-! ### Values that columns hold -/

theorem storeValue_of_coerce {type : ColumnType} {field : String} {value : Value}
    (h : type.coerce field = some value) (name : String) :
    storeValue (columnDef (name, type.sqlType)) value = .ok value := by
  cases type with
  | text =>
      simp only [ColumnType.coerce, Option.some.injEq] at h
      subst h
      rfl
  | integer =>
      simp only [ColumnType.coerce] at h
      split_ifs at h with hblank
      · cases h
        rfl
      · obtain ⟨n, hread, rfl⟩ := Option.map_eq_some_iff.1 h
        have hword : Number.isWord n = true := (Option.filter_eq_some_iff.1 hread).2
        simp [storeValue, storedAs?, columnDef, ColumnType.sqlType, hword]
  | real =>
      simp only [ColumnType.coerce] at h
      split_ifs at h with hblank
      · cases h
        rfl
      · obtain ⟨x, _, rfl⟩ := Option.map_eq_some_iff.1 h
        rfl

theorem storeRow_of_coerceFields {table : String} {line : Nat} {columns : List Column}
    {fields : List String} {values : List Value} (hlength : fields.length = columns.length)
    (h : coerceFields table line columns fields = .ok values) :
    storeRow (columns.map fun column => columnDef (column.name, column.type.sqlType)) values =
      .ok values := by
  induction columns generalizing fields values with
  | nil =>
      cases fields with
      | nil =>
          simp only [coerceFields, Except.ok.injEq] at h
          subst h
          rfl
      | cons => simp at hlength
  | cons column columns ih =>
      cases fields with
      | nil => simp at hlength
      | cons field fields =>
          rw [coerceFields] at h
          split at h
          · cases h
          · rename_i value hvalue
            cases hrest : coerceFields table line columns fields with
            | error failure => simp [hrest, Except.map] at h
            | ok rest =>
                simp only [hrest, Except.map, Except.ok.injEq] at h
                subst h
                simp [storeRow, storeValue_of_coerce hvalue, ih (by simpa using hlength) hrest,
                  bind, Except.bind]

theorem length_of_storeRow {columns : List ColumnDef} {values stored : List Value}
    (h : storeRow columns values = .ok stored) : values.length = columns.length := by
  induction columns generalizing values stored with
  | nil =>
      cases values with
      | nil => rfl
      | cons => simp [storeRow] at h
  | cons column columns ih =>
      cases values with
      | nil => simp [storeRow] at h
      | cons value values =>
          simp only [storeRow, bind, Except.bind] at h
          split at h
          · cases h
          · split at h
            · cases h
            · rename_i rest hrest
              simp [ih hrest]

/-! ### Typed rows -/

namespace Descriptor

theorem names_columnDefs (table : Descriptor) :
    table.columnDefs.map (·.name) = table.columnNames := by
  simp [columnDefs, columnNames, columnDef, Function.comp_def]

theorem storeRow_of_typedRow {table : Descriptor} {row : Record.Row} {values : List Value}
    (h : table.typedRow row = .ok values) : storeRow table.columnDefs values = .ok values := by
  unfold typedRow at h
  split_ifs at h with hlength
  exact storeRow_of_coerceFields (by simpa using hlength) h

theorem storeRow_of_mem_typedRows {table : Descriptor} {rows : List (Except Failure Record.Row)}
    {typed : List (List Value)} (h : table.typedRows rows = .ok typed) :
    ∀ values ∈ typed, storeRow table.columnDefs values = .ok values := by
  induction rows generalizing typed with
  | nil =>
      simp only [typedRows, Except.ok.injEq] at h
      simp [← h]
  | cons row rows ih =>
      cases row with
      | error failure => simp [typedRows] at h
      | ok row =>
          rw [typedRows] at h
          split at h
          · cases h
          · rename_i values hvalues
            cases hrest : table.typedRows rows with
            | error failure => simp [hrest, Except.map] at h
            | ok rest =>
                simp only [hrest, Except.map, Except.ok.injEq] at h
                subst h
                intro other hother
                rcases List.mem_cons.1 hother with rfl | hother
                · exact storeRow_of_typedRow hvalues
                · exact ih hrest other hother

end Descriptor

end LiveTables.Table
