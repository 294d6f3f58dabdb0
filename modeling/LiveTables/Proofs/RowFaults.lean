import LiveTables.Proofs.DataRows
import LiveTables.Proofs.TableLoading

/-!
# The first fault of a sequence of rows

Rows become a batch unless one of them is at fault, and then the first of those decides what is
reported: that it could not be read, that it does not have a field for each column, or the leftmost
of its fields that does not fit its column. What is behind it is not looked at.
-/

namespace LiveTables.Table

/-! ### Fields that are refused -/

/-- The leftmost of the fields that their columns refuse. -/
structure FirstRefusal (columns : List Column) (fields : List String) (position : Nat)
    (column : Column) (field : String) : Prop where
  column_eq : columns[position]? = some column
  field_eq : fields[position]? = some field
  refused : column.type.coerce field = none
  leftmost : ∀ earlier < position, ∀ column field, columns[earlier]? = some column →
    fields[earlier]? = some field → (column.type.coerce field).isSome = true

section Fields

variable {table : String} {line : Nat} {columns : List Column} {fields : List String}
  {position : Nat} {first column : Column} {head field : String}

theorem firstRefusal_zero_iff : FirstRefusal (first :: columns) (head :: fields) 0 column field ↔
    first = column ∧ head = field ∧ column.type.coerce field = none := by
  constructor
  · intro h
    exact ⟨Option.some.inj h.column_eq, Option.some.inj h.field_eq, h.refused⟩
  · rintro ⟨rfl, rfl, hrefused⟩
    exact ⟨rfl, rfl, hrefused, fun earlier hearlier => absurd hearlier (Nat.not_lt_zero earlier)⟩

theorem firstRefusal_succ_iff :
    FirstRefusal (first :: columns) (head :: fields) (position + 1) column field ↔
      (first.type.coerce head).isSome = true ∧
        FirstRefusal columns fields position column field := by
  constructor
  · intro h
    refine ⟨h.leftmost 0 (Nat.succ_pos position) first head rfl rfl, h.column_eq, h.field_eq,
      h.refused, ?_⟩
    intro earlier hearlier other raw hother hraw
    exact h.leftmost (earlier + 1) (Nat.succ_lt_succ hearlier) other raw hother hraw
  · rintro ⟨hfirst, h⟩
    refine ⟨h.column_eq, h.field_eq, h.refused, ?_⟩
    intro earlier hearlier other raw hother hraw
    cases earlier with
    | zero =>
        obtain rfl : first = other := Option.some.inj hother
        obtain rfl : head = raw := Option.some.inj hraw
        exact hfirst
    | succ earlier =>
        exact h.leftmost earlier (Nat.lt_of_succ_lt_succ hearlier) other raw hother hraw

/-- Fields are converted from left to right, up to the first that is refused. -/
theorem coerceFields_eq_error_iff {failure : Failure} :
    coerceFields table line columns fields = .error failure ↔
      ∃ position column field, FirstRefusal columns fields position column field ∧
        failure = .typeCoercion table line column.name field column.type := by
  induction columns generalizing fields with
  | nil =>
      rw [coerceFields]
      · constructor
        · intro h
          cases h
        · rintro ⟨position, column, field, h, -⟩
          simpa using h.column_eq
      · simp
  | cons first columns ih =>
      cases fields with
      | nil =>
          rw [coerceFields]
          · constructor
            · intro h
              cases h
            · rintro ⟨position, column, field, h, -⟩
              simpa using h.field_eq
          · simp
      | cons head fields =>
          rw [coerceFields]
          cases hvalue : first.type.coerce head with
          | none =>
              constructor
              · intro h
                exact ⟨0, first, head, firstRefusal_zero_iff.2 ⟨rfl, rfl, hvalue⟩,
                  (Except.error.inj h).symm⟩
              · rintro ⟨position, column, field, h, rfl⟩
                cases position with
                | zero =>
                    obtain ⟨rfl, rfl, -⟩ := firstRefusal_zero_iff.1 h
                    rfl
                | succ position =>
                    have hsome := (firstRefusal_succ_iff.1 h).1
                    simp [hvalue] at hsome
          | some value =>
              have hrest : (coerceFields table line columns fields).map (value :: ·) =
                  .error failure ↔ coerceFields table line columns fields = .error failure := by
                cases coerceFields table line columns fields <;> simp [Except.map]
              rw [hrest, ih]
              constructor
              · rintro ⟨position, column, field, h, hfailure⟩
                exact ⟨position + 1, column, field,
                  firstRefusal_succ_iff.2 ⟨by simp [hvalue], h⟩, hfailure⟩
              · rintro ⟨position, column, field, h, hfailure⟩
                cases position with
                | zero =>
                    obtain ⟨rfl, rfl, hnone⟩ := firstRefusal_zero_iff.1 h
                    simp [hvalue] at hnone
                | succ position =>
                    exact ⟨position, column, field, (firstRefusal_succ_iff.1 h).2, hfailure⟩

end Fields

/-! ### Items at fault -/

/-- An item of a sequence of rows is at fault, with what is reported of it. -/
inductive Fault (table : Descriptor) : Except Failure Record.Row → Failure → Prop
  | source (failure : Failure) : Fault table (.error failure) failure
  | width {row : Record.Row} (hwidth : row.fields.length ≠ table.columns.length) :
      Fault table (.ok row)
        (.schemaMismatch table.name row.line table.columns.length row.fields.length)
  | field {row : Record.Row} {position : Nat} {column : Column} {field : String}
      (hwidth : row.fields.length = table.columns.length)
      (hrefusal : FirstRefusal table.columns row.fields position column field) :
      Fault table (.ok row) (.typeCoercion table.name row.line column.name field column.type)

/-- An item is a row that has a field for each column of a table, each of which fits its column. -/
def Acceptable (table : Descriptor) (item : Except Failure Record.Row) : Prop :=
  ∃ row, item = .ok row ∧ Fits table.types row.fields

section Items

variable {table : Descriptor} {item : Except Failure Record.Row} {failure : Failure}

namespace Descriptor

theorem typedRow_eq_error_iff {row : Record.Row} :
    table.typedRow row = .error failure ↔ Fault table (.ok row) failure := by
  unfold typedRow
  split_ifs with hwidth
  · rw [bne_iff_ne] at hwidth
    constructor
    · intro h
      exact Except.error.inj h ▸ .width hwidth
    · intro h
      cases h with
      | width => rfl
      | field hsame => exact absurd hsame hwidth
  · rw [bne_iff_ne, not_not] at hwidth
    rw [coerceFields_eq_error_iff]
    constructor
    · rintro ⟨position, column, field, hrefusal, rfl⟩
      exact .field hwidth hrefusal
    · intro h
      cases h with
      | width hdiffers => exact absurd hwidth hdiffers
      | field _ hrefusal => exact ⟨_, _, _, hrefusal, rfl⟩

end Descriptor

theorem exists_fault_iff : (∃ failure, Fault table item failure) ↔ ¬ Acceptable table item := by
  cases item with
  | error cause =>
      constructor
      · rintro - ⟨row, hrow, -⟩
        cases hrow
      · exact fun _ => ⟨cause, .source cause⟩
  | ok row =>
      have hacceptable : Acceptable table (.ok row) ↔
          ∃ values, table.typedRow row = .ok values := by
        simp [Acceptable, Descriptor.typedRow_eq_ok_iff, exists_converted_iff]
      simp only [hacceptable, ← Descriptor.typedRow_eq_error_iff]
      cases table.typedRow row <;> simp

theorem Descriptor.typedRows_cons_of_fault (h : Fault table item failure)
    (after : List (Except Failure Record.Row)) :
    table.typedRows (item :: after) = .error failure := by
  cases item with
  | error cause =>
      cases h
      rfl
  | ok row => rw [typedRows, typedRow_eq_error_iff.2 h]

theorem Descriptor.typedRows_cons_of_acceptable (h : Acceptable table item)
    (after : List (Except Failure Record.Row)) :
    ∃ values, table.typedRows (item :: after) = (table.typedRows after).map (values :: ·) := by
  obtain ⟨row, rfl, hfits⟩ := h
  obtain ⟨values, hvalues⟩ := exists_converted_iff.2 hfits
  exact ⟨values, by rw [typedRows, typedRow_eq_ok_iff.2 hvalues]⟩

end Items

/-! ### Sequences of rows -/

/-- The first item at fault, with what is reported of it. -/
def FirstFault (table : Descriptor) (rows : List (Except Failure Record.Row)) (failure : Failure) :
    Prop :=
  ∃ before item after, rows = before ++ item :: after ∧
    (∀ other ∈ before, Acceptable table other) ∧ Fault table item failure

section Rows

variable {table : Descriptor} {rows : List (Except Failure Record.Row)} {failure : Failure}

theorem firstFault_cons_of_acceptable {item : Except Failure Record.Row}
    (hitem : Acceptable table item) :
    FirstFault table (item :: rows) failure ↔ FirstFault table rows failure := by
  constructor
  · rintro ⟨before, faulty, after, hsplit, hbefore, hfault⟩
    cases before with
    | nil =>
        obtain ⟨rfl, -⟩ := List.cons.inj hsplit
        exact absurd hitem (exists_fault_iff.1 ⟨failure, hfault⟩)
    | cons other before =>
        obtain ⟨-, rfl⟩ := List.cons.inj hsplit
        exact ⟨before, faulty, after, rfl, fun x hx => hbefore x (List.mem_cons_of_mem _ hx),
          hfault⟩
  · rintro ⟨before, faulty, after, rfl, hbefore, hfault⟩
    exact ⟨item :: before, faulty, after, rfl, List.forall_mem_cons.2 ⟨hitem, hbefore⟩, hfault⟩

namespace Descriptor

theorem typedRows_eq_error_iff :
    table.typedRows rows = .error failure ↔ FirstFault table rows failure := by
  induction rows with
  | nil => simp [typedRows, FirstFault]
  | cons item rows ih =>
      by_cases hitem : Acceptable table item
      · obtain ⟨values, hvalues⟩ := typedRows_cons_of_acceptable hitem rows
        rw [hvalues, firstFault_cons_of_acceptable hitem, ← ih]
        cases table.typedRows rows <;> simp [Except.map]
      · obtain ⟨cause, hcause⟩ := exists_fault_iff.2 hitem
        rw [typedRows_cons_of_fault hcause]
        constructor
        · intro h
          obtain rfl := Except.error.inj h
          exact ⟨[], item, rows, rfl, by simp, hcause⟩
        · rintro ⟨before, faulty, after, hsplit, hbefore, hfault⟩
          cases before with
          | nil =>
              obtain ⟨rfl, rfl⟩ := List.cons.inj hsplit
              rw [← typedRows_cons_of_fault hcause rows, typedRows_cons_of_fault hfault]
          | cons other before =>
              obtain ⟨rfl, -⟩ := List.cons.inj hsplit
              exact absurd (hbefore item List.mem_cons_self) hitem

theorem typedRows_append_of_fault {item : Except Failure Record.Row}
    (hfault : Fault table item failure) (before after instead : List (Except Failure Record.Row)) :
    table.typedRows (before ++ item :: after) = table.typedRows (before ++ item :: instead) := by
  induction before with
  | nil =>
      rw [List.nil_append, List.nil_append, typedRows_cons_of_fault hfault,
        typedRows_cons_of_fault hfault]
  | cons first before ih =>
      cases first with
      | error cause => rfl
      | ok row =>
          rw [List.cons_append, List.cons_append, typedRows, typedRows, ih]

theorem batch_eq_error_iff :
    table.batch rows = .error failure ↔ FirstFault table rows failure := by
  rw [← typedRows_eq_error_iff, batch]
  cases table.typedRows rows <;> simp [Except.map]

end Descriptor

end Rows

/-! ### Batches -/

/-- A missing value, or one of the kind that a column of a type holds. -/
def HasKind (type : ColumnType) (value : Value) : Prop :=
  value = .null ∨ match type with
    | .integer => ∃ n, value = .integer n
    | .real => ∃ x, value = .real x
    | .text => ∃ content, value = .text content

theorem hasKind_of_coerce {type : ColumnType} {field : String} {value : Value}
    (h : type.coerce field = some value) : HasKind type value := by
  unfold ColumnType.coerce at h
  cases type with
  | text => exact Or.inr ⟨field, (Option.some.inj h).symm⟩
  | integer =>
      split_ifs at h
      · exact Or.inl (Option.some.inj h).symm
      · obtain ⟨n, _, rfl⟩ := Option.map_eq_some_iff.1 h
        exact Or.inr ⟨n, rfl⟩
  | real =>
      split_ifs at h
      · exact Or.inl (Option.some.inj h).symm
      · obtain ⟨x, _, rfl⟩ := Option.map_eq_some_iff.1 h
        exact Or.inr ⟨x, rfl⟩

theorem Converted.hasKind {types : List ColumnType} {fields : List String} {values : List Value}
    (h : Converted types fields values) : List.Forall₂ HasKind types values := by
  induction h with
  | nil => exact .nil
  | cons hvalue _ ih => exact .cons (hasKind_of_coerce hvalue) ih

/-- The values of an item that is a row, each missing or of the kind of its column. -/
structure TypedAs (table : Descriptor) (item : Except Failure Record.Row) (values : List Value) :
    Prop where
  converted : RowValues table.types item values
  kinds : List.Forall₂ HasKind table.types values

theorem typedAs_of_rowValues {table : Descriptor} {item : Except Failure Record.Row}
    {values : List Value} (h : RowValues table.types item values) : TypedAs table item values := by
  obtain ⟨row, hrow, hconverted⟩ := h
  exact ⟨⟨row, hrow, hconverted⟩, hconverted.hasKind⟩

/-- What a batch of rows for a table is, and what is reported if there is none. -/
structure BatchContract (table : Descriptor) (rows : List (Except Failure Record.Row)) : Prop where
  accepted : (∃ batch, table.batch rows = .ok batch) ↔ ∀ item ∈ rows, Acceptable table item
  /-- The rows of a batch are those of the source, one by one and field by field. -/
  typed : ∀ batch, table.batch rows = .ok batch → batch.table = table.name ∧
    batch.columns = table.columnNames ∧ List.Forall₂ (TypedAs table) rows batch.rows
  refused : ∀ failure, table.batch rows = .error failure ↔ FirstFault table rows failure
  /-- What is behind an item at fault makes no difference. -/
  unread : ∀ before item after instead, rows = before ++ item :: after → ¬ Acceptable table item →
    table.batch (before ++ item :: instead) = table.batch rows

/-- A batch holds the typed rows of the whole sequence, or the first item at fault decides the
failure. -/
theorem batchContract (table : Descriptor) (rows : List (Except Failure Record.Row)) :
    BatchContract table rows := by
  constructor
  case accepted =>
    have hrows : (∃ batch, table.batch rows = .ok batch) ↔
        ∃ typed, List.Forall₂ (RowValues table.types) rows typed := by
      simp only [Cache.batch_eq_ok_iff, Descriptor.typedRows_eq_ok_iff]
      exact ⟨fun ⟨_, typed, htyped, _⟩ => ⟨typed, htyped⟩,
        fun ⟨typed, htyped⟩ => ⟨_, typed, htyped, rfl⟩⟩
    rw [hrows, exists_rowValues_iff]
    rfl
  case typed =>
    intro batch h
    obtain ⟨typed, htyped, rfl⟩ := Cache.batch_eq_ok_iff.1 h
    rw [Descriptor.typedRows_eq_ok_iff] at htyped
    exact ⟨rfl, rfl, htyped.imp fun _ _ => typedAs_of_rowValues⟩
  case refused => exact fun failure => Descriptor.batch_eq_error_iff
  case unread =>
    rintro before item after instead rfl hitem
    obtain ⟨failure, hfault⟩ := exists_fault_iff.2 hitem
    rw [Descriptor.batch, Descriptor.batch, Descriptor.typedRows_append_of_fault hfault]

end LiveTables.Table
