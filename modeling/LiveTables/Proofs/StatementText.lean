import LiveTables.Engine.Load
import LiveTables.Proofs.WrittenSql

/-!
# Statements from their text

A drop, a making of a table and an insert of bound rows are each read as exactly the statement that
they were written for, provided that the names in them are names at all: not empty, and without the
null character that ends a text early.
-/

namespace LiveTables.Sql

open LiveTables.Text LiveTables.Engine

/-- A name that the store can read when it is quoted. -/
def IsReadable (name : String) : Prop := name.isEmpty = false ∧ '\x00' ∉ name.toList

/-! ### From tokens to statements -/

theorem splitStatements_of_no_semicolon {found : List Token}
    (h : ∀ token ∈ found, token ≠ Token.symbol ';') (current : List Token)
    (hne : current.reverse ++ found ≠ []) :
    splitStatements current found = [current.reverse ++ found] := by
  induction found generalizing current with
  | nil =>
      have hcurrent : current.isEmpty = false := by
        cases current with
        | nil => simp at hne
        | cons => rfl
      simp [splitStatements, hcurrent]
  | cons token found ih =>
      have htoken := h token List.mem_cons_self
      rw [splitStatements]
      · rw [ih (fun other hother => h other (List.mem_cons_of_mem _ hother)) (token :: current)
          (by simp)]
        simp
      · exact htoken

theorem readStatements_of_readsAs {text : String} {expected : List Token} {statement : Statement}
    (htext : ReadsAs text.toList expected) (hne : expected ≠ [])
    (hsemicolon : ∀ token ∈ expected, token ≠ Token.symbol ';')
    (hread : readStatement expected = some statement) : readStatements text = some [statement] := by
  have hsplit := splitStatements_of_no_semicolon hsemicolon [] (by simpa using hne)
  simp only [List.reverse_nil, List.nil_append] at hsplit
  simp [readStatements, tokens_of_readsAs htext, hsplit, hread]

theorem readText_of_readStatements {text : String} {statement : Statement}
    (htext : readStatements text = some [statement]) (hnull : '\x00' ∉ text.toList)
    (hnames : ∀ name ∈ statement.names, name.isEmpty = false) :
    Connection.readText text = .ok [statement] := by
  have hcontains : text.contains '\x00' = false := by
    rw [String.contains_char_eq]
    simpa using hnull
  have hall : statement.names.all (fun name => !name.isEmpty) = true := by
    simpa using hnames
  simp [Connection.readText, hcontains, htext, hall]

/-- A text with one statement is that statement or is not readable, whatever names are in it. -/
theorem readText_cases {text : String} {statement : Statement}
    (htext : readStatements text = some [statement]) :
    Connection.readText text = .ok [statement] ∨ Connection.readText text = .error .unreadable := by
  unfold Connection.readText
  rw [htext]
  dsimp only
  split_ifs <;> simp

theorem readText_of_readsAs {text : String} {expected : List Token} {statement : Statement}
    (htext : ReadsAs text.toList expected) (hne : expected ≠ [])
    (hsemicolon : ∀ token ∈ expected, token ≠ Token.symbol ';')
    (hread : readStatement expected = some statement) (hnull : '\x00' ∉ text.toList)
    (hnames : ∀ name ∈ statement.names, name.isEmpty = false) :
    Connection.readText text = .ok [statement] :=
  readText_of_readStatements (readStatements_of_readsAs htext hne hsemicolon hread) hnull hnames

/-! ### Null characters -/

theorem mem_of_mem_intercalate {α : Type} {a : α} {separator : List α} {parts : List (List α)}
    (h : a ∈ List.intercalate separator parts) : a ∈ separator ∨ ∃ part ∈ parts, a ∈ part := by
  induction parts with
  | nil => simp at h
  | cons part parts ih =>
      cases parts with
      | nil => exact Or.inr ⟨part, by simp, by simpa using h⟩
      | cons next parts =>
          rw [List.intercalate_cons_cons, List.mem_append, List.mem_append] at h
          rcases h with (hpart | hseparator) | hrest
          · exact Or.inr ⟨part, List.mem_cons_self, hpart⟩
          · exact Or.inl hseparator
          · rcases ih hrest with hseparator | ⟨other, hother, hmem⟩
            · exact Or.inl hseparator
            · exact Or.inr ⟨other, List.mem_cons_of_mem _ hother, hmem⟩

theorem mem_doubleQuotes_iff {c : Char} {name : List Char} : c ∈ doubleQuotes name ↔ c ∈ name := by
  induction name with
  | nil => rfl
  | cons other name ih =>
      unfold doubleQuotes
      split_ifs with hother <;> simp [hother, ih]

theorem mem_quote {c : Char} {name : String} (h : c ∈ name.toList) : c ∈ (quote name).toList := by
  simp [quote, mem_doubleQuotes_iff, h]

theorem null_notMem_quote {name : String} (h : '\x00' ∉ name.toList) :
    '\x00' ∉ (quote name).toList := by
  simp [quote, mem_doubleQuotes_iff, h]

theorem null_notMem_intercalate {parts : List String}
    (h : ∀ part ∈ parts, '\x00' ∉ part.toList) : '\x00' ∉ (", ".intercalate parts).toList := by
  rw [String.toList_intercalate]
  intro hnull
  rcases mem_of_mem_intercalate hnull with hcomma | ⟨part, hpart, hmem⟩
  · exact absurd hcomma (by decide)
  · obtain ⟨text, htext, rfl⟩ := List.mem_map.1 hpart
    exact h text htext hmem

/-! ### Drops -/

theorem readsAs_dropText (table : String) :
    ReadsAs (dropText table).toList
      [.word "DROP", .word "TABLE", .word "IF", .word "EXISTS", .quoted table] := by
  have htext : dropText table = "DROP" ++ (" " ++ ("TABLE" ++ (" " ++ ("IF" ++ (" " ++
      ("EXISTS" ++ (" " ++ quote table))))))) := by
    unfold dropText
    simp [← String.append_assoc]
  rw [htext]
  apply ReadsAs.keyword _ (by decide)
  apply ReadsAs.keyword _ (by decide)
  apply ReadsAs.keyword _ (by decide)
  apply ReadsAs.keyword _ (by decide)
  exact readsAs_quote table

theorem readStatements_dropText (table : String) :
    readStatements (dropText table) = some [.dropTable true table] := by
  refine readStatements_of_readsAs (readsAs_dropText table) (by simp) (by simp) ?_
  have hdrop : lower "DROP" = "drop" := by decide
  have htable : lower "TABLE" = "table" := by decide
  have hif : lower "IF" = "if" := by decide
  have hexists : lower "EXISTS" = "exists" := by decide
  simp [readStatement, readTransaction, readSelect, readInsert, readDrop, readCreate,
    afterKeywords?, Token.isKeyword, Token.name?, hdrop, htable, hif, hexists]

theorem readText_dropText {table : String} (h : IsReadable table) :
    Connection.readText (dropText table) = .ok [.dropTable true table] := by
  refine readText_of_readStatements (readStatements_dropText table) ?_ ?_
  · unfold dropText
    simp [null_notMem_quote h.2]
  · simpa [Statement.names] using h.1

/-! ### Making tables -/

def columnTokens (column : String × SqlType) : List Token :=
  [.quoted column.1, .word column.2.keyword]

def columnDef (column : String × SqlType) : ColumnDef := ⟨column.1, column.2, false⟩

theorem readsAs_columnText (column : String × SqlType) :
    ReadsAs (columnText column).toList (columnTokens column) := by
  have hkeyword : isBareName column.2.keyword.toList = true := by
    cases column.2 <;> decide
  have hspace : " ".toList = [' '] := by decide
  have happend := (readsAs_quote column.1).append (readsAs_bareName hkeyword).space
    (breaks_cons (by decide) (by decide) _)
  unfold columnText
  rwa [String.toList_append, String.toList_append, hspace, List.append_assoc]

theorem sqlType?_keyword (type : SqlType) : Token.sqlType? (.word type.keyword) = some type := by
  cases type
  · have h : lower SqlType.bigint.keyword = "bigint" := by decide
    simp [Token.sqlType?, h]
  · have h : lower SqlType.double.keyword = "double" := by decide
    simp [Token.sqlType?, h]
  · have h : lower SqlType.varchar.keyword = "varchar" := by decide
    simp [Token.sqlType?, h]
  · have h : lower SqlType.blob.keyword = "blob" := by decide
    simp [Token.sqlType?, h]
  · have h : lower SqlType.boolean.keyword = "boolean" := by decide
    simp [Token.sqlType?, h]

theorem readColumns_columnTokens {columns : List (String × SqlType)} (hne : columns ≠ []) :
    readColumns (List.intercalate [Token.symbol ','] (columns.map columnTokens) ++
      [Token.symbol ')']) = some (columns.map columnDef) := by
  induction columns with
  | nil => exact absurd rfl hne
  | cons column columns ih =>
      cases columns with
      | nil => simp [columnTokens, columnDef, readColumns, Token.name?, sqlType?_keyword]
      | cons next columns =>
          have htail := ih (by simp)
          rw [List.map_cons, List.map_cons, List.intercalate_cons_cons, ← List.map_cons]
          generalize List.intercalate [Token.symbol ','] ((next :: columns).map columnTokens) = rest
            at htail ⊢
          simp [columnTokens, columnDef, readColumns, Token.name?, sqlType?_keyword, htail]

theorem readsAs_createText (table : String) (columns : List (String × SqlType)) :
    ReadsAs (createText table columns).toList
      ([.word "CREATE", .word "TABLE", .quoted table, Token.symbol '('] ++
        (List.intercalate [Token.symbol ','] (columns.map columnTokens) ++
          [Token.symbol ')'])) := by
  have hclose := (readsAs_intercalate (fun column => (columnText column).toList) columnTokens
    readsAs_columnText columns).append (readsAs_symbol (c := ')') (by decide))
    (breaks_cons (by decide) (by decide) _)
  have hopen := (readsAs_quote table).append (hclose.symbol (c := '(') (by decide)).space
    (breaks_cons (by decide) (by decide) _)
  have htext : createText table columns = "CREATE" ++ (" " ++ ("TABLE" ++ (" " ++ (quote table ++
      (" (" ++ (", ".intercalate (columns.map columnText) ++ ")")))))) := by
    unfold createText
    simp [← String.append_assoc]
  rw [htext]
  apply ReadsAs.keyword _ (by decide)
  apply ReadsAs.keyword _ (by decide)
  have hparen : " (".toList = [' ', '('] := by decide
  have hend : ")".toList = [')'] := by decide
  have hcomma : ", ".toList = [',', ' '] := by decide
  simp only [String.toList_append, String.toList_intercalate, hparen, hend, hcomma, List.map_map]
  exact hopen

theorem readStatements_createText (table : String) {columns : List (String × SqlType)}
    (hne : columns ≠ []) : readStatements (createText table columns) =
      some [.createTable table (columns.map columnDef)] := by
  refine readStatements_of_readsAs (readsAs_createText table columns) (by simp) ?_ ?_
  · rintro token htoken rfl
    simp only [List.mem_append, List.mem_cons, List.not_mem_nil, or_false, reduceCtorEq,
      Token.symbol.injEq, Char.reduceEq, or_self, false_or] at htoken
    rcases mem_of_mem_intercalate htoken with hcomma | ⟨part, hpart, hmem⟩
    · simp at hcomma
    · obtain ⟨column, _, rfl⟩ := List.mem_map.1 hpart
      simp [columnTokens] at hmem
  · have hcreate : lower "CREATE" = "create" := by decide
    have htable : lower "TABLE" = "table" := by decide
    simp [readStatement, readTransaction, readSelect, readInsert, readDrop, readCreate,
      afterKeywords?, Token.isKeyword, Token.name?, hcreate, htable, readColumns_columnTokens hne]

theorem readText_createText {table : String} {columns : List (String × SqlType)}
    (htable : IsReadable table) (hcolumns : ∀ column ∈ columns, IsReadable column.1)
    (hne : columns ≠ []) :
    Connection.readText (createText table columns) =
      .ok [.createTable table (columns.map columnDef)] := by
  refine readText_of_readStatements (readStatements_createText table hne) ?_ ?_
  · unfold createText
    have hnull : '\x00' ∉ (", ".intercalate (columns.map columnText)).toList := by
      apply null_notMem_intercalate
      intro part hpart
      obtain ⟨column, hcolumn, rfl⟩ := List.mem_map.1 hpart
      have hkeyword : '\x00' ∉ column.2.keyword.toList := by
        cases column.2 <;> decide
      unfold columnText
      simp [null_notMem_quote (hcolumns column hcolumn).2, hkeyword]
    simp only [String.toList_append, List.mem_append, not_or]
    exact ⟨⟨⟨⟨by decide, null_notMem_quote htable.2⟩, by decide⟩, hnull⟩, by decide⟩
  · intro name hname
    simp only [Statement.names, List.map_map, List.mem_cons, List.mem_map] at hname
    rcases hname with rfl | ⟨column, hcolumn, rfl⟩
    · exact htable.1
    · exact (hcolumns column hcolumn).1

/-- A table is made by a text that can be read only if its name can be read. -/
theorem isReadable_of_readText_createText {table : String} {columns : List (String × SqlType)}
    (hne : columns ≠ []) {statements : List Statement}
    (h : Connection.readText (createText table columns) = .ok statements) : IsReadable table := by
  simp only [Connection.readText, readStatements_createText table hne] at h
  split_ifs at h with hnull hnames
  constructor
  · simp only [List.all_cons, List.all_nil, Statement.names, Bool.and_eq_true] at hnames
    simpa using hnames.1.1
  · intro hmem
    rw [String.contains_char_eq, decide_eq_true_eq] at hnull
    refine hnull ?_
    unfold createText
    simp only [String.toList_append, List.mem_append]
    exact Or.inl (Or.inl (Or.inl (Or.inr (mem_quote hmem))))

/-! ### Inserts of bound rows -/

def nameTokens (name : String) : List Token := [.quoted name]

def placeholderTokens (width : Nat) : List Token :=
  Token.symbol '(' ::
    (List.intercalate [Token.symbol ','] (List.replicate width [Token.symbol '?']) ++
      [Token.symbol ')'])

theorem readsAs_placeholderRow (width : Nat) :
    ReadsAs (placeholderRow width).toList (placeholderTokens width) := by
  have hmarks := readsAs_intercalate (fun _ : Unit => ['?']) (fun _ => [Token.symbol '?'])
    (fun _ => readsAs_symbol (by decide)) (List.replicate width ())
  have hclose := hmarks.append (readsAs_symbol (c := ')') (by decide))
    (breaks_cons (by decide) (by decide) _)
  have hopen := hclose.symbol (c := '(') (by decide)
  have hparen : "(".toList = ['('] := by decide
  have hend : ")".toList = [')'] := by decide
  have hcomma : ", ".toList = [',', ' '] := by decide
  have hmark : "?".toList = ['?'] := by decide
  unfold placeholderRow placeholderTokens
  simp only [List.map_replicate] at hopen
  simp only [String.toList_append, String.toList_intercalate, List.map_replicate, hparen, hend,
    hcomma, hmark]
  exact hopen

theorem readsAs_placeholders (width height : Nat) :
    ReadsAs (placeholders width height).toList
      (List.intercalate [Token.symbol ','] (List.replicate height (placeholderTokens width))) := by
  have hrows := readsAs_intercalate (fun _ : Unit => (placeholderRow width).toList)
    (fun _ => placeholderTokens width) (fun _ => readsAs_placeholderRow width)
    (List.replicate height ())
  have hcomma : ", ".toList = [',', ' '] := by decide
  unfold placeholders
  simp only [List.map_replicate] at hrows
  simp only [String.toList_intercalate, List.map_replicate, hcomma]
  exact hrows

theorem readsAs_insertIntoText (table : String) (columns : List String) (height : Nat) :
    ReadsAs (insertIntoText table columns height).toList
      ([.word "INSERT", .word "INTO", .quoted table, Token.symbol '('] ++
        (List.intercalate [Token.symbol ','] (columns.map nameTokens) ++
          (Token.symbol ')' :: .word "VALUES" ::
            List.intercalate [Token.symbol ',']
              (List.replicate height (placeholderTokens columns.length))))) := by
  have hkeyword : isBareName "VALUES".toList = true := by decide
  have hvalues := (readsAs_placeholders columns.length height).keyword hkeyword
  have hnames := (readsAs_intercalate (fun column => (quote column).toList)
    nameTokens readsAs_quote columns).append
    (hvalues.space.symbol (c := ')') (by decide)) (breaks_cons (by decide) (by decide) _)
  have hopen := (readsAs_quote table).append (hnames.symbol (c := '(') (by decide)).space
    (breaks_cons (by decide) (by decide) _)
  have htext : insertIntoText table columns height = "INSERT" ++ (" " ++ ("INTO" ++ (" " ++
      (quote table ++ (" (" ++ (", ".intercalate (columns.map quote) ++ (") " ++ ("VALUES" ++
        (" " ++ placeholders columns.length height))))))))) := by
    unfold insertIntoText
    simp [← String.append_assoc]
  rw [htext]
  apply ReadsAs.keyword _ (by decide)
  apply ReadsAs.keyword _ (by decide)
  have hparen : " (".toList = [' ', '('] := by decide
  have hend : ") ".toList = [')', ' '] := by decide
  have hcomma : ", ".toList = [',', ' '] := by decide
  simp only [String.toList_append, String.toList_intercalate, hparen, hend, hcomma, List.map_map]
  simp only [String.toList_append] at hopen
  exact hopen

theorem readNames_quoted {columns : List String} (hne : columns ≠ []) (rest : List Token) :
    readNames (List.intercalate [Token.symbol ','] (columns.map nameTokens) ++
      (Token.symbol ')' :: rest)) = some (columns, rest) := by
  induction columns with
  | nil => exact absurd rfl hne
  | cons column columns ih =>
      cases columns with
      | nil => simp [nameTokens, readNames, Token.name?]
      | cons next columns =>
          have htail := ih (by simp)
          rw [List.map_cons, List.map_cons, List.intercalate_cons_cons, ← List.map_cons]
          generalize List.intercalate [Token.symbol ','] ((next :: columns).map nameTokens) = names
            at htail ⊢
          simp [nameTokens, readNames, Token.name?, htail]

/-- The placeholders of a row are its operands, and the rows behind it are read in the same way. -/
theorem readRows_placeholders (width : Nat) (row : List Operand) (rest : List Token) :
    readRows row
        (List.intercalate [Token.symbol ','] (List.replicate (width + 1) [Token.symbol '?']) ++
          [Token.symbol ')']) =
        some [row.reverse ++ List.replicate (width + 1) .placeholder] ∧
      readRows row
        (List.intercalate [Token.symbol ','] (List.replicate (width + 1) [Token.symbol '?']) ++
          (Token.symbol ')' :: Token.symbol ',' :: Token.symbol '(' :: rest)) =
        (readRows [] rest).map ((row.reverse ++ List.replicate (width + 1) .placeholder) :: ·) := by
  induction width generalizing row with
  | zero =>
      constructor
      · simp [readRows, Token.operand?]
      · simp [readRows, Token.operand?, Option.map_eq_bind]
  | succ width ih =>
      obtain ⟨hend, hnext⟩ := ih (.placeholder :: row)
      have hsplit :
          List.intercalate [Token.symbol ','] (List.replicate (width + 2) [Token.symbol '?']) =
            Token.symbol '?' :: Token.symbol ',' ::
              List.intercalate [Token.symbol ',']
                (List.replicate (width + 1) [Token.symbol '?']) := by
        rw [List.replicate_succ, List.replicate_succ, List.intercalate_cons_cons]
        rfl
      have hrow : (Operand.placeholder :: row).reverse ++ List.replicate (width + 1) .placeholder =
          row.reverse ++ List.replicate (width + 2) .placeholder := by
        rw [List.replicate_succ (n := width + 1)]
        simp
      rw [hsplit]
      rw [hrow] at hend hnext
      constructor
      · simpa [readRows, Token.operand?] using hend
      · simpa [readRows, Token.operand?] using hnext

theorem intercalate_placeholderTokens (width height : Nat) :
    List.intercalate [Token.symbol ','] (List.replicate (height + 1) (placeholderTokens width)) =
      Token.symbol '(' :: (List.intercalate [Token.symbol ',']
        (List.replicate (height + 1) (placeholderTokens width))).tail := by
  cases height with
  | zero => simp [placeholderTokens]
  | succ height =>
      rw [List.replicate_succ, List.replicate_succ, List.intercalate_cons_cons]
      rfl

theorem semicolon_notMem_placeholderTokens (width height : Nat) :
    Token.symbol ';' ∉
      List.intercalate [Token.symbol ','] (List.replicate height (placeholderTokens width)) := by
  intro hsemicolon
  rcases mem_of_mem_intercalate hsemicolon with hcomma | ⟨row, hrow, hmem⟩
  · simp at hcomma
  · rw [List.eq_of_mem_replicate hrow] at hmem
    simp only [placeholderTokens, List.mem_cons, List.mem_append, List.not_mem_nil, or_false,
      Token.symbol.injEq, Char.reduceEq, false_or] at hmem
    rcases mem_of_mem_intercalate hmem with hcomma | ⟨mark, hmark, hmem⟩
    · simp at hcomma
    · rw [List.eq_of_mem_replicate hmark] at hmem
      simp at hmem

theorem readRows_placeholderTokens (width height : Nat) :
    readRows [] (List.intercalate [Token.symbol ',']
        (List.replicate (height + 1) (placeholderTokens (width + 1)))).tail =
      some (List.replicate (height + 1) (List.replicate (width + 1) .placeholder)) := by
  induction height with
  | zero => simpa [placeholderTokens] using (readRows_placeholders width [] []).1
  | succ height ih =>
      have hsplit : (List.intercalate [Token.symbol ',']
          (List.replicate (height + 2) (placeholderTokens (width + 1)))).tail =
          List.intercalate [Token.symbol ','] (List.replicate (width + 1) [Token.symbol '?']) ++
            (Token.symbol ')' :: Token.symbol ',' :: Token.symbol '(' ::
              (List.intercalate [Token.symbol ',']
                (List.replicate (height + 1) (placeholderTokens (width + 1)))).tail) := by
        rw [List.replicate_succ, List.replicate_succ, List.intercalate_cons_cons,
          ← List.replicate_succ]
        conv_lhs => rw [intercalate_placeholderTokens]
        simp [placeholderTokens]
      rw [hsplit, (readRows_placeholders width [] _).2, ih]
      rfl

theorem readStatements_insertIntoText (table : String) {columns : List String} (hne : columns ≠ [])
    (height : Nat) : readStatements (insertIntoText table columns (height + 1)) =
      some [.insert table (some columns)
        (List.replicate (height + 1) (List.replicate columns.length .placeholder))] := by
  refine readStatements_of_readsAs (readsAs_insertIntoText table columns (height + 1)) (by simp)
    ?_ ?_
  · rintro token htoken rfl
    simp only [List.mem_append, List.mem_cons, List.not_mem_nil, reduceCtorEq,
      Token.symbol.injEq, Char.reduceEq, or_self, false_or] at htoken
    rcases htoken with hnames | hvalues
    · rcases mem_of_mem_intercalate hnames with hcomma | ⟨part, hpart, hmem⟩
      · simp at hcomma
      · obtain ⟨column, _, rfl⟩ := List.mem_map.1 hpart
        simp [nameTokens] at hmem
    · exact semicolon_notMem_placeholderTokens _ _ hvalues
  · have hinsert : lower "INSERT" = "insert" := by decide
    have hinto : lower "INTO" = "into" := by decide
    have hvalues : lower "VALUES" = "values" := by decide
    obtain ⟨width, hwidth⟩ : ∃ width, columns.length = width + 1 :=
      Nat.exists_eq_succ_of_ne_zero (by simpa using hne)
    have hrows := readRows_placeholderTokens width height
    rw [hwidth, intercalate_placeholderTokens]
    simp [readStatement, readTransaction, readSelect, readInsert, readNames_quoted hne, hrows,
      afterKeywords?, Token.isKeyword, Token.name?, hinsert, hinto, hvalues]

theorem null_notMem_placeholders (width height : Nat) :
    '\x00' ∉ (placeholders width height).toList := by
  have hmarks : '\x00' ∉ (", ".intercalate (List.replicate width "?")).toList := by
    apply null_notMem_intercalate
    intro part hpart
    rw [List.eq_of_mem_replicate hpart]
    decide
  apply null_notMem_intercalate
  intro part hpart
  rw [List.eq_of_mem_replicate hpart, placeholderRow]
  simp only [String.toList_append, List.mem_append, not_or]
  exact ⟨⟨by decide, hmarks⟩, by decide⟩

theorem readText_insertIntoText {table : String} {columns : List String} (htable : IsReadable table)
    (hcolumns : ∀ column ∈ columns, IsReadable column) (hne : columns ≠ []) (height : Nat) :
    Connection.readText (insertIntoText table columns (height + 1)) =
      .ok [.insert table (some columns)
        (List.replicate (height + 1) (List.replicate columns.length .placeholder))] := by
  refine readText_of_readStatements (readStatements_insertIntoText table hne height) ?_ ?_
  · have hnames : '\x00' ∉ (", ".intercalate (columns.map quote)).toList := by
      apply null_notMem_intercalate
      intro part hpart
      obtain ⟨column, hcolumn, rfl⟩ := List.mem_map.1 hpart
      exact null_notMem_quote (hcolumns column hcolumn).2
    unfold insertIntoText
    simp only [String.toList_append, List.mem_append, not_or]
    exact ⟨⟨⟨⟨⟨by decide, null_notMem_quote htable.2⟩, by decide⟩, hnames⟩, by decide⟩,
      null_notMem_placeholders columns.length (height + 1)⟩
  · intro name hname
    simp only [Statement.names, Option.getD_some, List.mem_cons] at hname
    rcases hname with rfl | hname
    · exact htable.1
    · exact (hcolumns name hname).1

/-! ### Queries of whole tables -/

/-- The query for all columns of a table, with the name of the table quoted. -/
def allColumnsText (table : String) : String := "SELECT * FROM " ++ quote table

theorem readsAs_allColumnsText (table : String) :
    ReadsAs (allColumnsText table).toList
      [.word "SELECT", Token.symbol '*', .word "FROM", .quoted table] := by
  have hkeyword : isBareName "FROM".toList = true := by decide
  have hsource := (readsAs_quote table).keyword hkeyword
  have hstar : ReadsAs ("*" ++ (" " ++ ("FROM" ++ (" " ++ quote table)))).toList
      [Token.symbol '*', .word "FROM", .quoted table] := by
    have hcolumns : "*".toList = ['*'] := by decide
    have hspace : " ".toList = [' '] := by decide
    rw [String.toList_append, String.toList_append, hcolumns, hspace]
    exact hsource.space.symbol (by decide)
  have htext : allColumnsText table =
      "SELECT" ++ (" " ++ ("*" ++ (" " ++ ("FROM" ++ (" " ++ quote table))))) := by
    unfold allColumnsText
    simp [← String.append_assoc]
  rw [htext]
  exact hstar.keyword (by decide)

theorem readText_allColumnsText {table : String} (h : IsReadable table) :
    Connection.readText (allColumnsText table) = .ok [.select (.allColumns table)] := by
  refine readText_of_readsAs (readsAs_allColumnsText table) (by simp) (by simp) ?_ ?_ ?_
  · have hselect : lower "SELECT" = "select" := by decide
    have hfrom : lower "FROM" = "from" := by decide
    simp [readStatement, readTransaction, readSelect, readQuery, readItems, afterKeywords?,
      Token.isKeyword, Token.name?, hselect, hfrom]
  · unfold allColumnsText
    simp [null_notMem_quote h.2]
  · simpa [Statement.names, Query.names] using h.1

end LiveTables.Sql
