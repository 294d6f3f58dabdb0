import LiveTables.Proofs.QueryContract
import LiveTables.Proofs.TextPieces

/-!
# Words of a query

The tables that a query refers to are found by the words of its masked text; the store reads the
text by tokens. Both see the same names where they agree on the ends of comments. To the store a
line comment ends at a line feed or a carriage return and block comments nest, whereas the mask
looks for a line feed and for the first closing mark: behind a comment of which the two ends are not
the same, a name can be missed.
-/

namespace LiveTables

open LiveTables.Engine LiveTables.Files LiveTables.Sql LiveTables.Table LiveTables.Text

namespace Sql

/-! ### Words of a text -/

section Words

variable {name current rest : List Char}

theorem mem_wordsFrom_of_break {c : Char} (hbreak : isWordChar c = false)
    (h : name ∈ wordsFrom [] rest) : name ∈ wordsFrom current (c :: rest) := by
  rw [wordsFrom]
  simp only [hbreak, Bool.false_eq_true, ↓reduceIte]
  split_ifs
  · exact h
  · exact List.mem_cons_of_mem _ h

theorem mem_wordsFrom_append (h : ∀ current, name ∈ wordsFrom current rest)
    (before : List Char) : name ∈ wordsFrom current (before ++ rest) := by
  induction before generalizing current with
  | nil => exact h current
  | cons c before ih =>
      cases hword : isWordChar c with
      | false => exact mem_wordsFrom_of_break hword ih
      | true =>
          rw [List.cons_append, wordsFrom, if_pos hword]
          exact ih

theorem wordsFrom_append {word : List Char} (hword : ∀ c ∈ word, isWordChar c = true) :
    wordsFrom current (word ++ rest) = wordsFrom (word.reverse ++ current) rest := by
  induction word generalizing current with
  | nil => rfl
  | cons c word ih =>
      rw [List.cons_append, wordsFrom, if_pos (hword c List.mem_cons_self),
        ih fun other hother => hword other (List.mem_cons_of_mem _ hother)]
      simp

/-- Word characters are a word where the text breaks behind them. -/
theorem mem_wordsFrom_self (hne : name ≠ []) (hword : ∀ c ∈ name, isWordChar c = true)
    (hbreak : ∀ c, rest.head? = some c → isWordChar c = false) :
    name ∈ wordsFrom [] (name ++ rest) := by
  rw [wordsFrom_append hword, List.append_nil]
  cases rest with
  | nil => simp [wordsFrom, hne]
  | cons c rest => simp [wordsFrom, hbreak c rfl, hne]

end Words

/-! ### The mask -/

theorem maskFrom_code_cons {c : Char} {rest : List Char} (hquote : c ≠ '\'' ∧ c ≠ '"')
    (hline : ¬ (c = '-' ∧ rest.head? = some '-'))
    (hblock : ¬ (c = '/' ∧ rest.head? = some '*')) :
    maskFrom .code (c :: rest) = c :: maskFrom .code rest := by
  rw [maskFrom.eq_def]
  split <;> simp_all

theorem maskFrom_name {word rest : List Char} (hword : ∀ c ∈ word, continuesName c = true) :
    maskFrom .code (word ++ rest) = word ++ maskFrom .code rest := by
  induction word with
  | nil => rfl
  | cons c word ih =>
      obtain ⟨_, hdash, hslash, hliteral, hquote⟩ :=
        not_mark_of_continuesName (hword c List.mem_cons_self)
      rw [List.cons_append, maskFrom_code_cons ⟨hliteral, hquote⟩ (fun h => hdash h.1)
        (fun h => hslash h.1), ih fun other hother => hword other (List.mem_cons_of_mem _ hother)]
      rfl

theorem maskFrom_run {run : Char → Bool} (hrun : ∀ c, run c = true → continuesName c = true)
    {c : Char} (hc : continuesName c = true) (rest : List Char) :
    maskFrom .code (c :: rest) =
      (c :: rest.takeWhile run) ++ maskFrom .code (rest.dropWhile run) := by
  rw [← maskFrom_name, List.cons_append, List.takeWhile_append_dropWhile]
  intro other hother
  rcases List.mem_cons.1 hother with rfl | hother
  · exact hc
  · exact hrun other (List.mem_takeWhile_imp hother)

theorem head?_maskFrom_code {text : List Char}
    (hbreak : ∀ c, text.head? = some c → continuesName c = false) :
    ∀ c, (maskFrom .code text).head? = some c → isWordChar c = false := by
  have hspace : isWordChar ' ' = false := by decide
  intro c hc
  cases text with
  | nil => simp [maskFrom] at hc
  | cons first rest =>
      have hfirst : isWordChar first = false := by
        rw [Bool.eq_false_iff]
        intro hword
        simpa [continuesName_of_isWordChar hword] using hbreak first rfl
      rw [maskFrom.eq_def] at hc
      split at hc <;> simp_all
      all_goals exact hc ▸ hspace

theorem maskFrom_literal {text inner rest : List Char}
    (h : readQuoted '\'' text = some (inner, rest)) :
    ∃ blanked, maskFrom .literal text = blanked ++ ' ' :: maskFrom .code rest := by
  fun_induction readQuoted '\'' text generalizing inner with
  | case1 => cases h
  | case2 c tail hc ih =>
      obtain ⟨⟨inner', rest'⟩, hread, heq⟩ := Option.map_eq_some_iff.1 h
      cases heq
      obtain ⟨blanked, hblanked⟩ := ih hread
      refine ⟨' ' :: blanked, ?_⟩
      rw [List.cons_append, ← hblanked, maskFrom.eq_def]
      split <;> simp_all
  | case3 c hc =>
      cases h
      obtain rfl : c = '\'' := by simpa using hc
      exact ⟨[], by simp [maskFrom]⟩
  | case4 c hc next after hnext ih =>
      obtain rfl : c = '\'' := by simpa using hc
      obtain rfl : next = '\'' := by simpa using hnext
      obtain ⟨⟨inner', rest'⟩, hread, heq⟩ := Option.map_eq_some_iff.1 h
      cases heq
      obtain ⟨blanked, hblanked⟩ := ih hread
      exact ⟨' ' :: ' ' :: blanked, by simp [maskFrom, hblanked]⟩
  | case5 c hc next after hnext =>
      cases h
      obtain rfl : c = '\'' := by simpa using hc
      have hmark : next ≠ '\'' := by simpa using hnext
      exact ⟨[], by simp [maskFrom, hmark]⟩

/-- A quotation stands under the mask without its marks, and the text behind it is code. -/
theorem maskFrom_quoted {text inner rest : List Char}
    (h : readQuoted '"' text = some (inner, rest)) :
    ∃ shown, maskFrom .quoted text = shown ++ ' ' :: maskFrom .code rest ∧
      ('"' ∉ inner → shown = inner) := by
  fun_induction readQuoted '"' text generalizing inner with
  | case1 => cases h
  | case2 c tail hc ih =>
      obtain ⟨⟨inner', rest'⟩, hread, heq⟩ := Option.map_eq_some_iff.1 h
      cases heq
      obtain ⟨shown, hshown, hinner⟩ := ih hread
      have hmark : c ≠ '"' := by simpa using hc
      refine ⟨c :: shown, by simp [maskFrom, hshown], fun hnone => ?_⟩
      rw [hinner fun hmem => hnone (List.mem_cons_of_mem c hmem)]
  | case3 c hc =>
      cases h
      obtain rfl : c = '"' := by simpa using hc
      exact ⟨[], by simp [maskFrom], fun _ => rfl⟩
  | case4 c hc next after hnext ih =>
      obtain rfl : c = '"' := by simpa using hc
      obtain rfl : next = '"' := by simpa using hnext
      obtain ⟨⟨inner', rest'⟩, hread, heq⟩ := Option.map_eq_some_iff.1 h
      cases heq
      obtain ⟨shown, hshown, _⟩ := ih hread
      exact ⟨' ' :: ' ' :: shown, by simp [maskFrom, hshown],
        fun hnone => absurd List.mem_cons_self hnone⟩
  | case5 c hc next after hnext =>
      cases h
      obtain rfl : c = '"' := by simpa using hc
      exact ⟨[], by simp [maskFrom], fun _ => rfl⟩

theorem maskFrom_blockComment_cons {c : Char} {rest : List Char}
    (hclose : ¬ (c = '*' ∧ rest.head? = some '/')) :
    maskFrom .blockComment (c :: rest) = ' ' :: maskFrom .blockComment rest := by
  rw [maskFrom.eq_def]
  split <;> simp_all

/-- A block comment without another inside it ends under the mask where it ends to the store. -/
theorem maskFrom_blockComment {body rest : List Char}
    (hend : skipBlock 0 (body ++ '*' :: '/' :: rest) = some rest)
    (hplain : ¬ ['/', '*'] <:+: body) :
    ∃ blanked, maskFrom .blockComment (body ++ '*' :: '/' :: rest) =
      blanked ++ ' ' :: maskFrom .code rest := by
  induction body with
  | nil => exact ⟨[' '], by simp [maskFrom]⟩
  | cons c body ih =>
      rw [List.cons_append] at hend ⊢
      have hinner : ¬ ['/', '*'] <:+: body := fun h => hplain (List.infix_cons h)
      have hclose : ¬ (c = '*' ∧ (body ++ '*' :: '/' :: rest).head? = some '/') := by
        rintro ⟨rfl, hhead⟩
        obtain ⟨tail, rfl⟩ : ∃ tail, body = '/' :: tail := by cases body <;> simp_all
        have hrest : tail ++ '*' :: '/' :: rest = rest := by simpa [skipBlock] using hend
        have hlength := congrArg List.length hrest
        simp only [List.length_append, List.length_cons] at hlength
        omega
      -- An opening mark may also share its star with the closing one, as in slash, star, slash:
      -- then the store would have to leave two comments within one character.
      have hopen : ¬ (c = '/' ∧ (body ++ '*' :: '/' :: rest).head? = some '*') := by
        rintro ⟨rfl, hhead⟩
        cases body with
        | nil =>
            obtain ⟨tail, htail⟩ := exists_body_of_skipBlock
              (show skipBlock 1 ('/' :: rest) = some rest by simpa [skipBlock] using hend)
            have hlength := congrArg List.length htail
            simp only [List.length_append, List.length_cons] at hlength
            omega
        | cons other tail =>
            obtain rfl : other = '*' := by simpa using hhead
            exact hplain ⟨[], tail, rfl⟩
      rw [skipBlock_cons hclose hopen] at hend
      obtain ⟨blanked, hblanked⟩ := ih hend hinner
      exact ⟨' ' :: blanked, by rw [maskFrom_blockComment_cons hclose, hblanked, List.cons_append]⟩

theorem wordsFrom_of_break {c : Char} {rest : List Char} (hbreak : isWordChar c = false) :
    wordsFrom [] (c :: rest) = wordsFrom [] rest := by
  simp [wordsFrom, hbreak]

/-- The words behind a plain line comment are the same under the mask as to the store. -/
theorem wordsFrom_maskFrom_lineComment {text : List Char}
    (hplain : (Piece.lineComment (skipLine text)).IsPlain) :
    wordsFrom [] (maskFrom .lineComment text) =
      wordsFrom [] (maskFrom .code (skipLine text)) := by
  have hspace : isWordChar ' ' = false := by decide
  have hfeed : isWordChar '\n' = false := by decide
  have hreturn : isWordChar '\r' = false := by decide
  induction text with
  | nil => rfl
  | cons c rest ih =>
      by_cases hline : c = '\n'
      · subst hline
        have hskip : skipLine ('\n' :: rest) = '\n' :: rest := rfl
        rw [hskip, maskFrom_code_cons (by decide) (by simp) (by simp), wordsFrom_of_break hfeed,
          maskFrom, wordsFrom_of_break hspace]
      · by_cases hcarriage : c = '\r'
        · subst hcarriage
          have hskip : skipLine ('\r' :: rest) = '\r' :: rest := rfl
          rw [hskip] at hplain ⊢
          -- The mask goes on blanking here: past nothing, or past the line feed that comes next.
          rcases hplain rest rfl with rfl | ⟨more, rfl⟩
          · rfl
          · rw [maskFrom_code_cons (by decide) (by simp) (by simp), wordsFrom_of_break hreturn,
              maskFrom_code_cons (by decide) (by simp) (by simp), wordsFrom_of_break hfeed]
            simp [maskFrom, wordsFrom_of_break hspace]
        · have hskip : skipLine (c :: rest) = skipLine rest := by
            simp [skipLine, hline, hcarriage]
          rw [hskip] at hplain ⊢
          rw [← ih hplain]
          simp [maskFrom, wordsFrom_of_break hspace]

/-! ### Names in sight -/

theorem isWordChar_of_isSpace {c : Char} (hspace : isSpace c = true) : isWordChar c = false := by
  rw [Bool.eq_false_iff]
  intro hword
  rw [(not_mark_of_continuesName (continuesName_of_isWordChar hword)).1] at hspace
  cases hspace

theorem maskFrom_space {c : Char} {rest : List Char} (hspace : isSpace c = true) :
    maskFrom .code (c :: rest) = c :: maskFrom .code rest := by
  have hmark : c ≠ '\'' ∧ c ≠ '"' ∧ c ≠ '-' ∧ c ≠ '/' := by
    refine ⟨?_, ?_, ?_, ?_⟩ <;>
      · rintro rfl
        revert hspace
        decide
  obtain ⟨hliteral, hquote, hdash, hslash⟩ := hmark
  exact maskFrom_code_cons ⟨hliteral, hquote⟩ (fun h => hdash h.1) (fun h => hslash h.1)

theorem StandsAlone.isWordChar {c : Char} {rest : List Char} (h : StandsAlone c rest) :
    Text.isWordChar c = false := by
  have hstart := h.noName
  simp only [startsName, Bool.or_eq_false_iff] at hstart
  obtain ⟨⟨halpha, hscore⟩, _⟩ := hstart
  simp [Text.isWordChar, Char.isAlphanum, halpha, hscore, h.noNumber]

/-- The piece is a name, bare or between double quotes. -/
def Piece.Spells (piece : Piece) (name : String) : Prop :=
  piece = .token (.word name) ∨ piece = .token (.quoted name)

/-- A name is among the pieces of a text with nothing but plain pieces in front of it. -/
inductive InSight (name : String) : List Piece → Prop
  | here {piece : Piece} {rest : List Piece} (hspells : piece.Spells name) :
      InSight name (piece :: rest)
  | behind {piece : Piece} {rest : List Piece} (hplain : piece.IsPlain)
      (hrest : InSight name rest) : InSight name (piece :: rest)

/-- A name in sight is a word of the masked text. -/
theorem mem_wordsFrom_of_inSight {name : String} {text : List Char} {pieces : List Piece}
    (h : Lexes text pieces) (hsight : InSight name pieces) (hne : name.toList ≠ [])
    (hword : ∀ c ∈ name.toList, isWordChar c = true) (current : List Char)
    (hcurrent : current = [] ∨ ∀ c, text.head? = some c → startsName c = false) :
    name.toList ∈ wordsFrom current (maskFrom .code text) := by
  have hspace : isWordChar ' ' = false := by decide
  -- Most pieces end in a blank, behind which no word is unfinished. A word or a number does not:
  -- the text behind it has to break by itself, which `hcurrent` carries.
  induction h generalizing current with
  | stop => cases hsight
  | @space c rest pieces hc _ ih =>
      rw [maskFrom_space hc]
      exact mem_wordsFrom_of_break (isWordChar_of_isSpace hc) (ih hsight [] (.inl rfl))
  | @lineComment rest pieces _ ih =>
      cases hsight with
      | here hspells => simp [Piece.Spells] at hspells
      | behind hplain hrest =>
          have hmem := ih hrest [] (.inl rfl)
          rw [← wordsFrom_maskFrom_lineComment hplain] at hmem
          rw [maskFrom]
          exact mem_wordsFrom_of_break hspace (mem_wordsFrom_of_break hspace hmem)
  | @blockComment body rest pieces hend _ ih =>
      cases hsight with
      | here hspells => simp [Piece.Spells] at hspells
      | behind hplain hrest =>
          obtain ⟨blanked, hblanked⟩ := maskFrom_blockComment hend hplain
          rw [maskFrom, hblanked]
          exact mem_wordsFrom_of_break hspace (mem_wordsFrom_of_break hspace
            (mem_wordsFrom_append
              (fun _ => mem_wordsFrom_of_break hspace (ih hrest [] (.inl rfl))) blanked))
  | @literal text inner rest pieces hend _ ih =>
      obtain ⟨blanked, hblanked⟩ := maskFrom_literal hend
      cases hsight with
      | here hspells => simp [Piece.Spells] at hspells
      | behind _ hrest =>
          rw [maskFrom, hblanked]
          exact mem_wordsFrom_of_break hspace (mem_wordsFrom_append
            (fun _ => mem_wordsFrom_of_break hspace (ih hrest [] (.inl rfl))) blanked)
  | @quoted text inner rest pieces hend _ ih =>
      obtain ⟨shown, hshown, hinner⟩ := maskFrom_quoted hend
      rw [maskFrom, hshown]
      refine mem_wordsFrom_of_break hspace ?_
      cases hsight with
      | here hspells =>
          obtain rfl : String.ofList inner = name := by simpa [Piece.Spells] using hspells
          rw [String.toList_ofList] at hne hword ⊢
          have hmark : '"' ∉ inner := fun hc => absurd (hword _ hc) (by decide)
          rw [hinner hmark]
          refine mem_wordsFrom_self hne hword fun c hc => ?_
          obtain rfl := Option.some.inj hc
          exact hspace
      | behind _ hrest =>
          exact mem_wordsFrom_append
            (fun _ => mem_wordsFrom_of_break hspace (ih hrest [] (.inl rfl))) shown
  | @word c rest pieces hstart _ ih =>
      have hc : continuesName c = true := by simp [continuesName, hstart]
      obtain rfl : current = [] := hcurrent.resolve_right fun hbreak => by
        simpa [hstart] using hbreak c rfl
      have hbreak : ∀ other, (rest.dropWhile continuesName).head? = some other →
          continuesName other = false := by
        intro other hother
        simpa [hother] using List.head?_dropWhile_not continuesName rest
      rw [maskFrom_run (fun _ h => h) hc rest]
      cases hsight with
      | here hspells =>
          obtain rfl : String.ofList (c :: rest.takeWhile continuesName) = name := by
            simpa [Piece.Spells] using hspells
          rw [String.toList_ofList] at hne hword ⊢
          exact mem_wordsFrom_self hne hword (head?_maskFrom_code hbreak)
      | behind _ hrest =>
          refine mem_wordsFrom_append (fun current => ih hrest current (.inr ?_)) _
          intro other hother
          have hstop := hbreak other hother
          simp only [continuesName, Bool.or_eq_false_iff] at hstop
          exact hstop.1.1
  | @number c rest pieces hdigit _ ih =>
      have hdigits : ∀ other : Char, other.isDigit = true → continuesName other = true :=
        fun other h => by simp [continuesName, h]
      rw [maskFrom_run hdigits (hdigits c hdigit) rest]
      cases hsight with
      | here hspells => simp [Piece.Spells] at hspells
      | behind hplain hrest =>
          exact mem_wordsFrom_append (fun current => ih hrest current (.inr hplain)) _
  | @symbol c rest pieces halone _ ih =>
      rw [maskFrom_code_cons halone.noQuote halone.noLineComment halone.noBlockComment]
      cases hsight with
      | here hspells => simp [Piece.Spells] at hspells
      | behind _ hrest =>
          exact mem_wordsFrom_of_break halone.isWordChar (ih hrest [] (.inl rfl))

end Sql

namespace Cache

/-- When tables are found by the words of a query, the ones to be loaded are all dirty tables that
have their names in sight in it, in whatever spelling. -/
theorem mem_plan_of_inSight {cache : Cache} (hreachable : cache.Reachable)
    (hmatching : cache.matching = .identifiers) {key : String} {entry : Entry}
    (hentry : cache.entries.find? key = some entry) (hdirty : entry.table.dirty = true)
    {query spelled : String} {pieces : List Piece} (hpieces : Lexes query.toList pieces)
    (hsight : InSight spelled pieces) (hsame : lower spelled = lower entry.table.name)
    (tree : Tree) : entry.table.name ∈ (cache.plan tree query).1 := by
  have hname : IsIdentifier entry.table.name :=
    (hreachable.wellFormed key entry hentry).2.identifier
  have hne : spelled.toList ≠ [] := by
    have hempty := hname.isEmpty_of_lower_eq hsame
    rwa [String.isEmpty_eq_false_iff, ne_eq, ← String.toList_eq_nil_iff] at hempty
  have hword := mem_wordsFrom_of_inSight hpieces hsight hne
    (fun c hc => hname.isWordChar_of_lower_eq hsame hc) [] (.inl rfl)
  have hmatches : lower entry.table.name ∈ identifierWords query := by
    rw [identifierWords, mem_nameSet, ← hsame, mask, String.toList_ofList]
    exact List.mem_map.2 ⟨spelled.toList, hword, by rw [String.ofList_toList]⟩
  obtain ⟨drained, hdrained, hkept, hstill⟩ := exists_entry_drain hentry tree
  refine mem_referenced_iff.2 ⟨key, drained, hdrained, hkept, hstill hdirty, ?_⟩
  rw [(frame_drain cache tree).matching]
  change Matches cache.matching query entry.table.name
  rw [hmatching]
  exact hmatches

/-- A quote inside a comment does not hide the name behind it. -/
theorem mem_plan_of_quoted_name :
    (ofOneFile .inMemory .identifiers).Reachable ∧
    (ofOneFile .inMemory .identifiers).matching = .identifiers ∧
    (ofOneFile .inMemory .identifiers).entries.find? "a" = some ⟨oneFileTable, "/a.c"⟩ ∧
    oneFileTable.name = "a" ∧ oneFileTable.dirty = true ∧
    Lexes "/* ' */ \"A\"".toList [.blockComment [' ', '\'', ' '], .token (.quoted "A")] ∧
    InSight "A" [.blockComment [' ', '\'', ' '], .token (.quoted "A")] ∧
    lower "A" = lower "a" ∧
    "a" ∈ ((ofOneFile .inMemory .identifiers).plan oneFile "/* ' */ \"A\"").1 := by
  have hreachable := reachable_ofOneFile .inMemory .identifiers rfl
  have hentry := entry_ofOneFile .inMemory .identifiers
  have hquoted : Lexes ['"', 'A', '"'] [.token (.quoted "A")] :=
    .quoted (show readQuoted '"' ['A', '"'] = some (['A'], []) from rfl) .stop
  have hcomment : skipBlock 0 ([' ', '\'', ' '] ++ '*' :: '/' :: [' ', '"', 'A', '"']) =
      some [' ', '"', 'A', '"'] := rfl
  have hpieces : Lexes "/* ' */ \"A\"".toList
      [.blockComment [' ', '\'', ' '], .token (.quoted "A")] :=
    .blockComment hcomment (.space rfl hquoted)
  have hplain : ¬ ['/', '*'] <:+: [' ', '\'', ' '] := by decide
  have hsight : InSight "A" [.blockComment [' ', '\'', ' '], .token (.quoted "A")] :=
    .behind hplain (.here (.inr rfl))
  have hsame : lower "A" = lower oneFileTable.name := by decide
  exact ⟨hreachable, rfl, hentry, rfl, rfl, hpieces, hsight, hsame,
    mem_plan_of_inSight hreachable rfl hentry rfl hpieces hsight hsame oneFile⟩

theorem plan_eq_nil_of_no_words {cache : Cache} (hmatching : cache.matching = .identifiers)
    {query : String} (hwords : identifierWords query = []) (tree : Tree) :
    (cache.plan tree query).1 = [] := by
  rw [List.eq_nil_iff_forall_not_mem]
  intro name hname
  obtain ⟨_, _, _, _, _, hmatches⟩ := mem_referenced_iff.1 hname
  rw [(frame_drain cache tree).matching] at hmatches
  change Matches cache.matching query name at hmatches
  rw [hmatching] at hmatches
  change lower name ∈ identifierWords query at hmatches
  rw [hwords] at hmatches
  cases hmatches

/-- Behind a line comment that ends at a carriage return, and behind a comment inside a comment, the
store reads a name that the query is not taken to refer to. -/
theorem plan_eq_nil_of_hidden_name :
    (ofOneFile .inMemory .identifiers).Reachable ∧
    (ofOneFile .inMemory .identifiers).matching = .identifiers ∧
    (ofOneFile .inMemory .identifiers).entries.find? "a" = some ⟨oneFileTable, "/a.c"⟩ ∧
    oneFileTable.name = "a" ∧ oneFileTable.dirty = true ∧
    tokens "--\ra".toList = some [.word "a"] ∧
    ((ofOneFile .inMemory .identifiers).plan oneFile "--\ra").1 = [] ∧
    tokens "/* /* */ ' */ a".toList = some [.word "a"] ∧
    ((ofOneFile .inMemory .identifiers).plan oneFile "/* /* */ ' */ a").1 = [] := by
  have hline : identifierWords "--\ra" = [] := by cbv
  have hnested : identifierWords "/* /* */ ' */ a" = [] := by cbv
  refine ⟨reachable_ofOneFile .inMemory .identifiers rfl, rfl,
    entry_ofOneFile .inMemory .identifiers, rfl, rfl, ?_, plan_eq_nil_of_no_words rfl hline oneFile,
    ?_, plan_eq_nil_of_no_words rfl hnested oneFile⟩
  · cbv
  · cbv

end Cache

end LiveTables
