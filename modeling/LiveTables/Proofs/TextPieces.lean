import LiveTables.Proofs.Naming
import LiveTables.Sql.Token

/-!
# Pieces of a text

The store reads a text by tokens and passes over the spaces and the comments between them. Here the
text is taken apart into all its pieces, with what tells where a comment or a number ends.
-/

namespace LiveTables

open LiveTables.Text

namespace Sql

/-! ### Characters of names -/

theorem continuesName_of_isWordChar {c : Char} (h : isWordChar c = true) :
    continuesName c = true := by
  simp only [isWordChar, Char.isAlphanum, Bool.or_eq_true] at h
  rcases h with (halpha | hdigit) | hscore
  · simp [continuesName, startsName, halpha]
  · simp [continuesName, hdigit]
  · simp [continuesName, startsName, hscore]

/-- The characters of names begin no space, comment, literal or quotation. -/
theorem not_mark_of_continuesName {c : Char} (h : continuesName c = true) :
    isSpace c = false ∧ c ≠ '-' ∧ c ≠ '/' ∧ c ≠ '\'' ∧ c ≠ '"' := by
  refine ⟨?_, ?_, ?_, ?_, ?_⟩
  · rw [Bool.eq_false_iff]
    intro hspace
    simp only [isSpace, Bool.or_eq_true, beq_iff_eq] at hspace
    rcases hspace with ((((rfl | rfl) | rfl) | rfl) | rfl) | rfl <;> revert h <;> decide
  all_goals
    rintro rfl
    revert h
    decide

theorem startsName_of_isDigit {c : Char} (h : c.isDigit = true) : startsName c = false := by
  have hscore : c ≠ '_' := by
    rintro rfl
    revert h
    decide
  have hascii : ¬ 0x80 ≤ c.toNat := fun hwide => by
    have hhigh := toNat_le_of_isDigit h
    omega
  simp [startsName, isAlpha_of_isDigit h, hscore, hascii]

/-! ### Pieces of a text -/

/-- A comment or a token of a text. A line comment and a number come with the text behind them, a
block comment with the text between its outer marks. -/
inductive Piece where
  | lineComment (following : List Char)
  | blockComment (body : List Char)
  | number (digits : String) (following : List Char)
  | token (token : Token)

def Piece.token? : Piece → Option Token
  | .lineComment _ | .blockComment _ => none
  | .number digits _ => some (.number digits)
  | .token found => some found

/-- A piece that the mask ends where the store does: a line comment that does not end at a carriage
return alone, a block comment with no other in it, and a number that no name follows at once. -/
def Piece.IsPlain : Piece → Prop
  | .lineComment following =>
      ∀ rest, following = '\r' :: rest → rest = [] ∨ ∃ more, rest = '\n' :: more
  | .blockComment body => ¬ ['/', '*'] <:+: body
  | .number _ following => ∀ c, following.head? = some c → startsName c = false
  | .token _ => True

/-- A character is a token of its own in front of a text. -/
structure StandsAlone (c : Char) (rest : List Char) : Prop where
  notSpace : isSpace c = false
  noQuote : c ≠ '\'' ∧ c ≠ '"'
  noName : startsName c = false
  noNumber : c.isDigit = false
  noLineComment : ¬ (c = '-' ∧ rest.head? = some '-')
  noBlockComment : ¬ (c = '/' ∧ rest.head? = some '*')

/-- A text and the pieces that the store reads in it. -/
inductive Lexes : List Char → List Piece → Prop
  | stop : Lexes [] []
  | space {c : Char} {rest : List Char} {pieces : List Piece} (hspace : isSpace c = true)
      (hrest : Lexes rest pieces) : Lexes (c :: rest) pieces
  | lineComment {rest : List Char} {pieces : List Piece} (hrest : Lexes (skipLine rest) pieces) :
      Lexes ('-' :: '-' :: rest) (.lineComment (skipLine rest) :: pieces)
  | blockComment {body rest : List Char} {pieces : List Piece}
      (hend : skipBlock 0 (body ++ '*' :: '/' :: rest) = some rest) (hrest : Lexes rest pieces) :
      Lexes ('/' :: '*' :: (body ++ '*' :: '/' :: rest)) (.blockComment body :: pieces)
  | literal {text inner rest : List Char} {pieces : List Piece}
      (hend : readQuoted '\'' text = some (inner, rest)) (hrest : Lexes rest pieces) :
      Lexes ('\'' :: text) (.token (.literal (String.ofList inner)) :: pieces)
  | quoted {text inner rest : List Char} {pieces : List Piece}
      (hend : readQuoted '"' text = some (inner, rest)) (hrest : Lexes rest pieces) :
      Lexes ('"' :: text) (.token (.quoted (String.ofList inner)) :: pieces)
  | word {c : Char} {rest : List Char} {pieces : List Piece} (hstart : startsName c = true)
      (hrest : Lexes (rest.dropWhile continuesName) pieces) :
      Lexes (c :: rest)
        (.token (.word (String.ofList (c :: rest.takeWhile continuesName))) :: pieces)
  | number {c : Char} {rest : List Char} {pieces : List Piece} (hdigit : c.isDigit = true)
      (hrest : Lexes (rest.dropWhile Char.isDigit) pieces) :
      Lexes (c :: rest) (.number (String.ofList (c :: rest.takeWhile Char.isDigit))
        (rest.dropWhile Char.isDigit) :: pieces)
  | symbol {c : Char} {rest : List Char} {pieces : List Piece} (halone : StandsAlone c rest)
      (hrest : Lexes rest pieces) : Lexes (c :: rest) (.token (.symbol c) :: pieces)

theorem exists_body_of_skipBlock {depth : Nat} {text rest : List Char}
    (h : skipBlock depth text = some rest) : ∃ body, text = body ++ '*' :: '/' :: rest := by
  fun_induction skipBlock depth text with
  | case1 text => exact ⟨[], by simpa using h⟩
  | case2 text outer ih =>
      obtain ⟨body, rfl⟩ := ih h
      exact ⟨'*' :: '/' :: body, rfl⟩
  | case3 depth text ih =>
      obtain ⟨body, rfl⟩ := ih h
      exact ⟨'/' :: '*' :: body, rfl⟩
  | case4 depth c text _ _ ih =>
      obtain ⟨body, rfl⟩ := ih h
      exact ⟨c :: body, rfl⟩
  | case5 => cases h

theorem skipBlock_cons {depth : Nat} {c : Char} {rest : List Char}
    (hclose : ¬ (c = '*' ∧ rest.head? = some '/')) (hopen : ¬ (c = '/' ∧ rest.head? = some '*')) :
    skipBlock depth (c :: rest) = skipBlock depth rest := by
  rw [skipBlock.eq_def]
  split <;> simp_all

theorem skipLine_dash (rest : List Char) : skipLine ('-' :: rest) = skipLine rest := by
  simp [skipLine]

theorem exists_lexes_of_tokens {text : List Char} {found : List Token}
    (h : tokens text = some found) :
    ∃ pieces, Lexes text pieces ∧ pieces.filterMap Piece.token? = found := by
  fun_induction tokens text generalizing found with
  | case1 =>
      obtain rfl := Option.some.inj h
      exact ⟨[], .stop, rfl⟩
  | case2 c rest hspace ih =>
      obtain ⟨pieces, hrest, hfound⟩ := ih h
      exact ⟨pieces, .space hspace hrest, hfound⟩
  | case3 c rest _ hline ih =>
      obtain ⟨rfl, after, rfl⟩ : c = '-' ∧ ∃ after, rest = '-' :: after := by
        cases rest <;> simp_all
      rw [skipLine_dash] at ih h
      obtain ⟨pieces, hrest, hfound⟩ := ih h
      exact ⟨_, .lineComment hrest, hfound⟩
  | case4 => cases h
  | case5 c rest _ _ hblock rest' hskip ih =>
      obtain ⟨rfl, after, rfl⟩ : c = '/' ∧ ∃ after, rest = '*' :: after := by
        cases rest <;> simp_all
      rw [List.drop_one, List.tail_cons] at hskip
      obtain ⟨body, rfl⟩ := exists_body_of_skipBlock hskip
      obtain ⟨pieces, hrest, hfound⟩ := ih h
      exact ⟨_, .blockComment hskip hrest, hfound⟩
  | case6 => cases h
  | case7 c rest _ _ _ hquote inner rest' hread ih =>
      obtain ⟨others, hothers, rfl⟩ := Option.map_eq_some_iff.1 h
      obtain ⟨pieces, hrest, rfl⟩ := ih hothers
      rw [Bool.or_eq_true, beq_iff_eq, beq_iff_eq] at hquote
      rcases hquote with rfl | rfl
      · exact ⟨_, .literal hread hrest, rfl⟩
      · exact ⟨_, .quoted hread hrest, rfl⟩
  | case8 c rest _ _ _ _ hstart ih =>
      obtain ⟨others, hothers, rfl⟩ := Option.map_eq_some_iff.1 h
      obtain ⟨pieces, hrest, rfl⟩ := ih hothers
      exact ⟨_, .word hstart hrest, rfl⟩
  | case9 c rest _ _ _ _ _ hdigit ih =>
      obtain ⟨others, hothers, rfl⟩ := Option.map_eq_some_iff.1 h
      obtain ⟨pieces, hrest, rfl⟩ := ih hothers
      exact ⟨_, .number hdigit hrest, rfl⟩
  | case10 c rest hspace hline hblock hquote hstart hdigit ih =>
      obtain ⟨others, hothers, rfl⟩ := Option.map_eq_some_iff.1 h
      obtain ⟨pieces, hrest, rfl⟩ := ih hothers
      refine ⟨_, .symbol ⟨?_, ?_, ?_, ?_, ?_, ?_⟩ hrest, rfl⟩
      · simpa using hspace
      · simpa using hquote
      · simpa using hstart
      · simpa using hdigit
      · simpa using hline
      · simpa using hblock

theorem tokens_of_lexes {text : List Char} {pieces : List Piece} (h : Lexes text pieces) :
    tokens text = some (pieces.filterMap Piece.token?) := by
  induction h with
  | stop => simp [tokens]
  | space hspace _ ih => rw [tokens.eq_def]; simp [hspace, ih]
  | lineComment _ ih =>
      have hspace : isSpace '-' = false := by decide
      rw [tokens.eq_def]
      simp [hspace, skipLine_dash, ih, List.filterMap_cons, Piece.token?]
  | @blockComment body rest pieces hend _ ih =>
      have hspace : isSpace '/' = false := by decide
      rw [tokens.eq_def]
      simp only [hspace, Bool.false_eq_true, ↓reduceIte, Char.reduceBEq, List.head?_cons,
        Option.some_beq_some, Bool.and_self, BEq.rfl]
      split <;> simp_all [List.filterMap_cons, Piece.token?]
  | literal hend _ ih =>
      have hspace : isSpace '\'' = false := by decide
      rw [tokens.eq_def]
      simp only [hspace, Bool.false_eq_true, ↓reduceIte, Char.reduceBEq, Bool.false_and, BEq.rfl,
        Bool.or_false]
      split <;> simp_all [Piece.token?]
  | quoted hend _ ih =>
      have hspace : isSpace '"' = false := by decide
      rw [tokens.eq_def]
      simp only [hspace, Bool.false_eq_true, ↓reduceIte, Char.reduceBEq, Bool.false_and, BEq.rfl,
        Bool.or_true]
      split <;> simp_all [Piece.token?]
  | @word c rest pieces hstart _ ih =>
      have hname : continuesName c = true := by simp [continuesName, hstart]
      obtain ⟨hspace, hdash, hslash, hliteral, hquote⟩ := not_mark_of_continuesName hname
      rw [tokens.eq_def]
      simp [hspace, hdash, hslash, hliteral, hquote, hstart, ih, Piece.token?]
  | @number c rest pieces hdigit _ ih =>
      have hname : continuesName c = true := by simp [continuesName, hdigit]
      obtain ⟨hspace, hdash, hslash, hliteral, hquote⟩ := not_mark_of_continuesName hname
      have hstart := startsName_of_isDigit hdigit
      rw [tokens.eq_def]
      simp [hspace, hdash, hslash, hliteral, hquote, hstart, hdigit, ih, Piece.token?]
  | symbol halone _ ih =>
      rw [tokens.eq_def]
      simp [halone.notSpace, halone.noQuote, halone.noName, halone.noNumber, halone.noLineComment,
        halone.noBlockComment, ih, Piece.token?]

/-- The tokens of a text are those among its pieces. -/
theorem tokens_eq_some_iff {text : List Char} {found : List Token} :
    tokens text = some found ↔
      ∃ pieces, Lexes text pieces ∧ pieces.filterMap Piece.token? = found := by
  constructor
  · exact exists_lexes_of_tokens
  · rintro ⟨pieces, hpieces, rfl⟩
    exact tokens_of_lexes hpieces

end Sql

end LiveTables
