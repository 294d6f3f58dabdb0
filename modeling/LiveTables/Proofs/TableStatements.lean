import LiveTables.Proofs.StoredRows

/-!
# The statements of a table read back

The text that makes a table is read as one statement with the name of the table, the names of its
columns and their types, whatever characters the name is made of, and the text that drops it as one
drop of that name. A quoted name ends at one place only, so no name ends early, and tables of
different names or types have different texts.
-/

namespace LiveTables

open LiveTables.Sql LiveTables.Table LiveTables.Text

namespace Sql

/-! ### Where a quoted name ends -/

/-- A text behind an opening quote is a name up to its closing quote, and what is left: inside the
name a quote stands twice, and none stands directly behind the closing one. -/
inductive Enclosed : List Char → List Char → List Char → Prop
  | close {rest : List Char} (hrest : rest.head? ≠ some '"') : Enclosed ('"' :: rest) [] rest
  | doubled {text name rest : List Char} (h : Enclosed text name rest) :
      Enclosed ('"' :: '"' :: text) ('"' :: name) rest
  | plain {c : Char} {text name rest : List Char} (hc : c ≠ '"') (h : Enclosed text name rest) :
      Enclosed (c :: text) (c :: name) rest

theorem readQuoted_eq_some_iff {text name rest : List Char} :
    readQuoted '"' text = some (name, rest) ↔ Enclosed text name rest := by
  constructor
  · intro h
    fun_induction readQuoted '"' text generalizing name rest with
    | case1 => cases h
    | case2 c text hc ih =>
        obtain ⟨⟨inner, after⟩, hread, heq⟩ := Option.map_eq_some_iff.1 h
        obtain ⟨rfl, rfl⟩ := Prod.mk.inj heq
        exact .plain (by simpa using hc) (ih hread)
    | case3 c hc =>
        obtain rfl : c = '"' := by simpa using hc
        obtain ⟨rfl, rfl⟩ := Prod.mk.inj (Option.some.inj h)
        exact .close (by simp)
    | case4 c hc next after hnext ih =>
        obtain rfl : c = '"' := by simpa using hc
        obtain rfl : next = '"' := by simpa using hnext
        obtain ⟨⟨inner, rest'⟩, hread, heq⟩ := Option.map_eq_some_iff.1 h
        obtain ⟨rfl, rfl⟩ := Prod.mk.inj heq
        exact .doubled (ih hread)
    | case5 c hc next after hnext =>
        obtain rfl : c = '"' := by simpa using hc
        obtain ⟨rfl, rfl⟩ := Prod.mk.inj (Option.some.inj h)
        exact .close (by simpa using hnext)
  · intro h
    induction h with
    | @close rest hrest => simpa [doubleQuotes] using readQuoted_doubleQuotes [] rest hrest
    | doubled _ ih => simp [readQuoted, ih]
    | plain hc _ ih =>
        rw [readQuoted.eq_def]
        simp [hc, ih]

/-- A text starts with a name in quotes. -/
def StartsQuoted (text name rest : List Char) : Prop :=
  ∃ body, text = '"' :: body ∧ Enclosed body name rest

theorem startsQuoted_quote_iff {name : String} {following : List Char}
    (hfollowing : following.head? ≠ some '"') {inner rest : List Char} :
    StartsQuoted ((quote name).toList ++ following) inner rest ↔
      inner = name.toList ∧ rest = following := by
  have htext : (quote name).toList ++ following =
      '"' :: (doubleQuotes name.toList ++ '"' :: following) := by
    simp [quote]
  have hread := readQuoted_doubleQuotes name.toList following hfollowing
  have hstarts : StartsQuoted ((quote name).toList ++ following) inner rest ↔
      Enclosed (doubleQuotes name.toList ++ '"' :: following) inner rest := by
    rw [StartsQuoted, htext]
    simp
  rw [hstarts, ← readQuoted_eq_some_iff, hread]
  simp [eq_comm]

end Sql

theorem ColumnType.sqlType_injective : Function.Injective ColumnType.sqlType := by
  intro first second h
  cases first <;> cases second <;> first | rfl | cases h

namespace Table

/-! ### Columns in the order of their positions -/

namespace Descriptor

variable {table : Descriptor} {types : List ColumnType}

/-- A table with a column for each of the types, named by its position. -/
def HasColumns (table : Descriptor) (types : List ColumnType) : Prop :=
  table.columns = (ofTypes table.name types).columns

/-- The columns of types as a statement defines them. -/
def definitions (name : String) (types : List ColumnType) : List ColumnDef :=
  types.zipIdx.map fun (type, position) => ⟨columnName name position, type.sqlType, false⟩

theorem HasColumns.columnDefs_eq (h : table.HasColumns types) :
    table.columnDefs = definitions table.name types := by
  rw [columnDefs, h]
  simp [ofTypes, definitions, columnDef, Function.comp_def]

theorem HasColumns.columnNames_eq (h : table.HasColumns types) :
    table.columnNames = (List.range types.length).map (columnName table.name) :=
  calc table.columnNames = types.zipIdx.map fun pair => columnName table.name pair.2 := by
        rw [columnNames, h]
        simp [ofTypes, Function.comp_def]
    _ = (types.zipIdx.map (·.2)).map (columnName table.name) := by
        rw [List.map_map]
        rfl
    _ = (List.range types.length).map (columnName table.name) := by
        rw [List.zipIdx_map_snd, List.range_eq_range']

theorem types_of_definitions (name : String) (types : List ColumnType) :
    (definitions name types).map (·.type) = types.map ColumnType.sqlType :=
  calc (definitions name types).map (·.type) = types.zipIdx.map fun pair => pair.1.sqlType := by
        simp [definitions, Function.comp_def]
    _ = (types.zipIdx.map (·.1)).map ColumnType.sqlType := by
        rw [List.map_map]
        rfl
    _ = types.map ColumnType.sqlType := by rw [List.zipIdx_map_fst]

/-- Position by position, names of columns differ under every mapping of characters that keeps the
digits. -/
theorem flatMap_columnName_injective (name : String) {fold : Char → List Char}
    (hdigits : ∀ c, c.isDigit = true → fold c = [c]) :
    Function.Injective fun position => (columnName name position).toList.flatMap fold := by
  have hkeep : ∀ position : Nat, (toString position).toList.flatMap fold =
      (toString position).toList := by
    intro position
    have hsingle : ∀ c ∈ (toString position).toList, fold c = [c] :=
      fun c hc => hdigits c (isDigit_of_mem_toString hc)
    rw [List.flatMap_congr hsingle, List.flatMap_singleton']
  intro first second h
  simp only [columnName, String.toList_append, List.flatMap_append, hkeep,
    List.append_cancel_left_eq] at h
  exact Nat.repr_inj.1 (String.toList_injective h)

theorem HasColumns.readStatements_eq (h : table.HasColumns types) (hne : types ≠ []) :
    readStatements table.createText =
      some [.createTable table.name (definitions table.name types)] := by
  have hcolumns : table.columns ≠ [] := h ▸ columns_ofTypes_ne_nil table.name hne
  rw [createText, readStatements_createText table.name (by simpa using hcolumns), List.map_map,
    ← h.columnDefs_eq]
  rfl

end Descriptor

/-- What is read from the texts that make and drop a table with columns of the given types. -/
structure ReadBack (table : Descriptor) (types : List ColumnType) : Prop where
  created : readStatements table.createText =
    some [.createTable table.name (Descriptor.definitions table.name types)]
  dropped : readStatements table.dropText = some [.dropTable true table.name]
  /-- A name in quotes is read to its end and no further, whatever follows it. -/
  closed : ∀ name ∈ table.name :: table.columnNames, ∀ following : List Char,
    following.head? ≠ some '"' → ∀ inner rest,
      StartsQuoted ((quote name).toList ++ following) inner rest ↔
        inner = name.toList ∧ rest = following
  /-- No other table has the same texts. -/
  distinct : ∀ (other : Descriptor) otherTypes, other.HasColumns otherTypes → otherTypes ≠ [] →
    table.createText = other.createText → table.name = other.name ∧ types = otherTypes
  distinctDrops : ∀ other : Descriptor, table.dropText = other.dropText → table.name = other.name
  /-- The names of the columns differ, and not in letter case only, -/
  names : (table.columnNames.map lower).Nodup
  /-- nor in any other way that leaves the digits as they are. -/
  folded : ∀ fold : Char → List Char, (∀ c, c.isDigit = true → fold c = [c]) →
    (table.columnNames.map fun name => name.toList.flatMap fold).Nodup

theorem readBack_of_hasColumns {table : Descriptor} {types : List ColumnType}
    (htable : table.HasColumns types) (hne : types ≠ []) : ReadBack table types where
  created := htable.readStatements_eq hne
  dropped := readStatements_dropText table.name
  closed := fun _ _ _ hfollowing _ _ => startsQuoted_quote_iff hfollowing
  distinct := by
    intro other otherTypes hother hotherNe hsame
    have hread := htable.readStatements_eq hne
    rw [hsame, hother.readStatements_eq hotherNe] at hread
    simp only [Option.some.injEq, List.cons.injEq, Statement.createTable.injEq, and_true] at hread
    obtain ⟨hname, hcolumns⟩ := hread
    have htypes := congrArg (List.map (·.type)) hcolumns
    rw [Descriptor.types_of_definitions, Descriptor.types_of_definitions] at htypes
    exact ⟨hname.symm, (List.map_injective_iff.2 ColumnType.sqlType_injective htypes).symm⟩
  distinctDrops := by
    intro other hsame
    have hread := readStatements_dropText table.name
    rw [show dropText table.name = dropText other.name from hsame, readStatements_dropText] at hread
    simpa using hread.symm
  names := by
    rw [htable.columnNames_eq, List.map_map]
    refine List.nodup_range.map ?_
    intro first second h
    simp only [Function.comp_apply, lower_columnName] at h
    exact columnName_injective _ h
  folded := by
    intro fold hdigits
    rw [htable.columnNames_eq, List.map_map]
    exact List.nodup_range.map (Descriptor.flatMap_columnName_injective table.name hdigits)

/-- A name with quotes, a semicolon, the start of a comment and a line feed. -/
theorem readBack_of_hasColumns_quotes :
    ReadBack (Descriptor.ofTypes "a\"; --\n\"\"" [.integer, .text, .real])
      [.integer, .text, .real] :=
  readBack_of_hasColumns rfl (List.cons_ne_nil _ _)

end Table

end LiveTables
