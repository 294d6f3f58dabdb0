import LiveTables.Proofs.QueryWords

/-!
# Stretches of a query

A query text is taken apart from the left into characters of code, comments, literals and
quotations, and there is one way to do so. The mask blanks a stretch or shows what stands in it, and
so the words of a query do not depend on what its comments and literals say.
-/

namespace LiveTables.Sql

open LiveTables.Text

/-! ### Marked bodies -/

/-- The closing mark of a stretch that has one, and nothing for a stretch that the text breaks
off. -/
def closing (closed : Bool) (mark : List Char) : List Char := if closed then mark else []

/-- A body reaches to the first closing mark behind its opening one, or to the end of the text if
there is none. A mark whose first characters are the last of the body would be an earlier one. -/
def EndsAt (mark body rest : List Char) (closed : Bool) : Prop :=
  if closed then ¬ mark <:+: body ++ mark.dropLast else ¬ mark <:+: body ∧ rest = []

section Marked

variable {mark body rest : List Char} {closed : Bool} {c : Char}

theorem EndsAt.tail (h : EndsAt mark (c :: body) rest closed) : EndsAt mark body rest closed := by
  cases closed with
  | true => exact fun hmark => h (List.infix_cons hmark)
  | false => exact ⟨fun hmark => h.1 (List.infix_cons hmark), h.2⟩

theorem isPrefixOf_append_dropLast (body mark rest : List Char) :
    body ++ mark.dropLast <+: body ++ mark ++ rest := by
  rw [List.append_assoc, List.prefix_append_right_inj]
  exact (List.dropLast_prefix mark).trans (List.prefix_append mark rest)

/-- A body does not begin with the mark that ends it. -/
theorem EndsAt.not_prefix (h : EndsAt mark (c :: body) rest closed) :
    ¬ mark <+: c :: (body ++ closing closed mark ++ rest) := by
  intro hmark
  cases closed with
  | false =>
      obtain ⟨hnone, rfl⟩ := h
      exact hnone (by simpa [closing] using hmark.isInfix)
  | true =>
      have hlength : mark.length ≤ ((c :: body) ++ mark.dropLast).length := by
        simp only [List.length_append, List.length_cons, List.length_dropLast]
        omega
      have hearlier := List.prefix_of_prefix_length_le (by simpa [closing] using hmark)
        (isPrefixOf_append_dropLast (c :: body) mark rest) hlength
      exact h hearlier.isInfix

theorem exists_endsAt (hmark : mark ≠ []) (text : List Char) :
    ∃ body closed rest, text = body ++ closing closed mark ++ rest ∧
      EndsAt mark body rest closed := by
  induction text with
  | nil => exact ⟨[], false, [], rfl, by simpa using hmark, rfl⟩
  | cons c text ih =>
      by_cases hstarts : mark <+: c :: text
      · obtain ⟨rest, hrest⟩ := hstarts
        refine ⟨[], true, rest, hrest.symm, fun hearlier => ?_⟩
        have hlength := hearlier.length_le
        have hpos := List.length_pos_iff.2 hmark
        simp only [List.nil_append, List.length_dropLast] at hlength
        omega
      · obtain ⟨body, closed, rest, rfl, hends⟩ := ih
        refine ⟨c :: body, closed, rest, rfl, ?_⟩
        cases closed with
        | false =>
            obtain ⟨hnone, rfl⟩ := hends
            refine ⟨fun hinfix => ?_, rfl⟩
            rcases List.infix_cons_iff.1 hinfix with hhere | hinfix
            · exact hstarts (by simpa [closing] using hhere)
            · exact hnone hinfix
        | true =>
            intro hinfix
            rcases List.infix_cons_iff.1 hinfix with hhere | hinfix
            · exact hstarts (hhere.trans (isPrefixOf_append_dropLast (c :: body) mark rest))
            · exact hends hinfix

theorem EndsAt.unique (hmark : mark ≠ []) {body' rest' : List Char} {closed' : Bool}
    (h : EndsAt mark body rest closed) (h' : EndsAt mark body' rest' closed')
    (hsame : body ++ closing closed mark ++ rest = body' ++ closing closed' mark ++ rest') :
    body = body' ∧ closed = closed' ∧ rest = rest' := by
  induction body generalizing body' with
  | nil =>
      cases body' with
      | nil =>
          cases closed <;> cases closed' <;> simp_all [closing, EndsAt]
      | cons c body' =>
          cases closed with
          | false => simp [closing, h.2] at hsame
          | true => exact absurd ⟨rest, by simpa [closing] using hsame⟩ h'.not_prefix
  | cons c body ih =>
      cases body' with
      | nil =>
          cases closed' with
          | false => simp [closing, h'.2] at hsame
          | true => exact absurd ⟨rest', by simpa [closing] using hsame.symm⟩ h.not_prefix
      | cons c' body' =>
          simp only [List.cons_append, List.cons.injEq] at hsame
          obtain ⟨rfl, hsame⟩ := hsame
          obtain ⟨rfl, hclosed, hrest⟩ := ih h.tail h'.tail hsame
          exact ⟨rfl, hclosed, hrest⟩

end Marked

/-! ### Literals -/

/-- The content of a literal as it is written: each quote twice. -/
def escapedQuotes : List Char → List Char
  | [] => []
  | c :: rest => if c = '\'' then '\'' :: '\'' :: escapedQuotes rest else c :: escapedQuotes rest

/-- A literal is closed by a quote that no other one follows, or ends with the text. -/
def LiteralEnds (rest : List Char) (closed : Bool) : Prop :=
  if closed then rest.head? ≠ some '\'' else rest = []

theorem exists_literalEnds (text : List Char) : ∃ content closed rest,
    text = escapedQuotes content ++ closing closed ['\''] ++ rest ∧ LiteralEnds rest closed := by
  fun_induction readQuoted '\'' text with
  | case1 => exact ⟨[], false, [], rfl, rfl⟩
  | case2 c rest hc ih =>
      obtain ⟨content, closed, rest', rfl, hends⟩ := ih
      have hmark : c ≠ '\'' := by simpa using hc
      exact ⟨c :: content, closed, rest', by simp [escapedQuotes, hmark], hends⟩
  | case3 c hc =>
      obtain rfl : c = '\'' := by simpa using hc
      exact ⟨[], true, [], rfl, by simp [LiteralEnds]⟩
  | case4 c hc next after hnext ih =>
      obtain rfl : c = '\'' := by simpa using hc
      obtain rfl : next = '\'' := by simpa using hnext
      obtain ⟨content, closed, rest, rfl, hends⟩ := ih
      exact ⟨'\'' :: content, closed, rest, by simp [escapedQuotes], hends⟩
  | case5 c hc next after hnext =>
      obtain rfl : c = '\'' := by simpa using hc
      exact ⟨[], true, next :: after, rfl, by simpa [LiteralEnds] using hnext⟩

theorem head?_escapedQuotes (c : Char) (content : List Char) :
    (escapedQuotes (c :: content)).head? = some c := by
  unfold escapedQuotes
  split_ifs with hc <;> simp [hc]

theorem LiteralEnds.ne_escapedQuotes {rest : List Char} {closed : Bool}
    (h : LiteralEnds rest closed) (c : Char) (content more : List Char) :
    closing closed ['\''] ++ rest ≠ escapedQuotes (c :: content) ++ more := by
  intro hsame
  have hhead : (closing closed ['\''] ++ rest).head? = some c := by
    rw [hsame, List.head?_append, head?_escapedQuotes]
    rfl
  cases closed with
  | false =>
      obtain rfl : rest = [] := h
      cases hhead
  | true =>
      have hlone : rest.head? ≠ some '\'' := h
      obtain rfl : '\'' = c := Option.some.inj hhead
      have hrest : rest = '\'' :: (escapedQuotes content ++ more) := by
        simpa [closing, escapedQuotes] using hsame
      simp [hrest] at hlone

theorem LiteralEnds.unique {content content' rest rest' : List Char} {closed closed' : Bool}
    (h : LiteralEnds rest closed) (h' : LiteralEnds rest' closed')
    (hsame : escapedQuotes content ++ closing closed ['\''] ++ rest =
      escapedQuotes content' ++ closing closed' ['\''] ++ rest') :
    content = content' ∧ closed = closed' ∧ rest = rest' := by
  induction content generalizing content' with
  | nil =>
      cases content' with
      | nil => cases closed <;> cases closed' <;> simp_all [closing, LiteralEnds, escapedQuotes]
      | cons c content' =>
          rw [List.append_assoc, List.append_assoc] at hsame
          exact absurd hsame (h.ne_escapedQuotes c content' _)
  | cons c content ih =>
      cases content' with
      | nil =>
          rw [List.append_assoc, List.append_assoc] at hsame
          exact absurd hsame.symm (h'.ne_escapedQuotes c content _)
      | cons c' content' =>
          obtain rfl : c = c' := by
            have hhead := congrArg List.head? hsame
            simp only [List.append_assoc, List.head?_append, head?_escapedQuotes] at hhead
            exact Option.some.inj hhead
          have htail : escapedQuotes content ++ closing closed ['\''] ++ rest =
              escapedQuotes content' ++ closing closed' ['\''] ++ rest' := by
            unfold escapedQuotes at hsame
            split_ifs at hsame <;> simpa using hsame
          obtain ⟨rfl, hclosed, hrest⟩ := ih htail
          exact ⟨rfl, hclosed, hrest⟩

/-! ### Stretches -/

/-- A character of code, or a comment, literal or quotation with what stands between its marks and
whether its closing mark is there. -/
inductive Stretch where
  | code (c : Char)
  | lineComment (body : List Char) (closed : Bool)
  | blockComment (body : List Char) (closed : Bool)
  | literal (content : List Char) (closed : Bool)
  | quotation (body : List Char) (closed : Bool)

namespace Stretch

def text : Stretch → List Char
  | code c => [c]
  | lineComment body closed => '-' :: '-' :: (body ++ closing closed ['\n'])
  | blockComment body closed => '/' :: '*' :: (body ++ closing closed ['*', '/'])
  | literal content closed => '\'' :: (escapedQuotes content ++ closing closed ['\''])
  | quotation body closed => '"' :: (body ++ closing closed ['"'])

/-- A stretch is what the text in which it stands begins with, given the rest of that text. -/
def Fits (rest : List Char) : Stretch → Prop
  | code c => c ≠ '\'' ∧ c ≠ '"' ∧ ¬ (c = '-' ∧ rest.head? = some '-') ∧
      ¬ (c = '/' ∧ rest.head? = some '*')
  | lineComment body closed => EndsAt ['\n'] body rest closed
  | blockComment body closed => EndsAt ['*', '/'] body rest closed
  | literal _ closed => LiteralEnds rest closed
  | quotation body closed => EndsAt ['"'] body rest closed

def region : Stretch → Region
  | code _ => .code
  | lineComment .. => .lineComment
  | blockComment .. => .blockComment
  | literal .. => .literal
  | quotation .. => .quoted

end Stretch

/-- The region that a text of code begins with. -/
def regionAt : List Char → Region
  | '-' :: '-' :: _ => .lineComment
  | '/' :: '*' :: _ => .blockComment
  | '\'' :: _ => .literal
  | '"' :: _ => .quoted
  | _ => .code

theorem Stretch.Fits.regionAt_eq {stretch : Stretch} {rest : List Char} (h : stretch.Fits rest) :
    regionAt (stretch.text ++ rest) = stretch.region := by
  cases stretch with
  | code c =>
      obtain ⟨hliteral, hquote, hline, hblock⟩ := h
      unfold regionAt
      split <;> simp_all [text, region]
  | _ => rfl

/-- What a text begins with is told by the text. -/
theorem Stretch.Fits.unique {first second : Stretch} {rest rest' : List Char} (h : first.Fits rest)
    (h' : second.Fits rest') (hsame : first.text ++ rest = second.text ++ rest') :
    first = second ∧ rest = rest' := by
  have hregion : first.region = second.region := by
    rw [← h.regionAt_eq, ← h'.regionAt_eq, hsame]
  cases first with
  | code c =>
      cases second <;> cases hregion
      simpa [text] using hsame
  | lineComment body closed =>
      cases second <;> cases hregion
      obtain ⟨rfl, rfl, rfl⟩ := EndsAt.unique (List.cons_ne_nil _ _) h h'
        (by simpa [text] using hsame)
      exact ⟨rfl, rfl⟩
  | blockComment body closed =>
      cases second <;> cases hregion
      obtain ⟨rfl, rfl, rfl⟩ := EndsAt.unique (List.cons_ne_nil _ _) h h'
        (by simpa [text] using hsame)
      exact ⟨rfl, rfl⟩
  | literal content closed =>
      cases second <;> cases hregion
      obtain ⟨rfl, rfl, rfl⟩ := LiteralEnds.unique h h' (by simpa [text] using hsame)
      exact ⟨rfl, rfl⟩
  | quotation body closed =>
      cases second <;> cases hregion
      obtain ⟨rfl, rfl, rfl⟩ := EndsAt.unique (List.cons_ne_nil _ _) h h'
        (by simpa [text] using hsame)
      exact ⟨rfl, rfl⟩

theorem Stretch.text_ne_nil (stretch : Stretch) : stretch.text ≠ [] := by
  cases stretch <;> exact List.cons_ne_nil _ _

theorem exists_stretch {text : List Char} (hne : text ≠ []) :
    ∃ (stretch : Stretch) (rest : List Char), text = stretch.text ++ rest ∧ stretch.Fits rest := by
  cases hregion : regionAt text with
  | code =>
      obtain ⟨c, rest, rfl⟩ := List.exists_cons_of_ne_nil hne
      refine ⟨.code c, rest, rfl, ?_⟩
      refine ⟨?_, ?_, ?_, ?_⟩
      · rintro rfl
        cases hregion
      · rintro rfl
        cases hregion
      · rintro ⟨rfl, hhead⟩
        obtain ⟨rest, rfl⟩ := List.head?_eq_some_iff.1 hhead
        cases hregion
      · rintro ⟨rfl, hhead⟩
        obtain ⟨rest, rfl⟩ := List.head?_eq_some_iff.1 hhead
        cases hregion
  | lineComment =>
      unfold regionAt at hregion
      split at hregion <;> cases hregion
      rename_i inner
      obtain ⟨body, closed, rest, rfl, hends⟩ := exists_endsAt (List.cons_ne_nil '\n' []) inner
      exact ⟨.lineComment body closed, rest, by simp [Stretch.text], hends⟩
  | blockComment =>
      unfold regionAt at hregion
      split at hregion <;> cases hregion
      rename_i inner
      obtain ⟨body, closed, rest, rfl, hends⟩ := exists_endsAt (List.cons_ne_nil '*' ['/']) inner
      exact ⟨.blockComment body closed, rest, by simp [Stretch.text], hends⟩
  | literal =>
      unfold regionAt at hregion
      split at hregion <;> cases hregion
      rename_i inner
      obtain ⟨content, closed, rest, rfl, hends⟩ := exists_literalEnds inner
      exact ⟨.literal content closed, rest, by simp [Stretch.text], hends⟩
  | quoted =>
      unfold regionAt at hregion
      split at hregion <;> cases hregion
      rename_i inner
      obtain ⟨body, closed, rest, rfl, hends⟩ := exists_endsAt (List.cons_ne_nil '"' []) inner
      exact ⟨.quotation body closed, rest, by simp [Stretch.text], hends⟩

def textOf (stretches : List Stretch) : List Char := stretches.flatMap Stretch.text

/-- Stretches that a text splits into from the left. -/
def Splits : List Stretch → Prop
  | [] => True
  | stretch :: rest => stretch.Fits (textOf rest) ∧ Splits rest

theorem exists_splits (text : List Char) :
    ∃ stretches, Splits stretches ∧ textOf stretches = text := by
  induction hlength : text.length using Nat.strong_induction_on generalizing text with
  | _ length ih =>
      by_cases hne : text = []
      · exact ⟨[], trivial, hne.symm⟩
      · obtain ⟨stretch, rest, rfl, hfits⟩ := exists_stretch hne
        have hshorter : rest.length < length := by
          have hpos := List.length_pos_iff.2 stretch.text_ne_nil
          rw [← hlength, List.length_append]
          omega
        obtain ⟨stretches, hsplits, rfl⟩ := ih _ hshorter rest rfl
        exact ⟨stretch :: stretches, ⟨hfits, hsplits⟩, by simp [textOf]⟩

theorem Splits.unique {first second : List Stretch} (h : Splits first) (h' : Splits second)
    (hsame : textOf first = textOf second) : first = second := by
  induction first generalizing second with
  | nil =>
      cases second with
      | nil => rfl
      | cons stretch second => simp [textOf, stretch.text_ne_nil] at hsame
  | cons stretch first ih =>
      cases second with
      | nil => simp [textOf, stretch.text_ne_nil] at hsame
      | cons other second =>
          obtain ⟨rfl, hrest⟩ := h.1.unique h'.1 hsame
          rw [ih h.2 h'.2 hrest]

/-! ### The mask -/

/-- A stretch as the mask shows it: code and the inside of a quotation as they are, and a blank for
every other character. -/
def Stretch.shown : Stretch → List Char
  | code c => [c]
  | quotation body closed => ' ' :: (body ++ (closing closed ['"']).map fun _ => ' ')
  | stretch => stretch.text.map fun _ => ' '

theorem Stretch.length_shown (stretch : Stretch) : stretch.shown.length = stretch.text.length := by
  cases stretch <;> simp [shown, text]

section Mask

variable {mark body rest : List Char} {closed : Bool}

/-- In a region, each character is shown in one way up to a mark that is blanked. -/
theorem maskFrom_of_endsAt {region : Region} {shown : Char → Char}
    (hcons : ∀ c rest, ¬ mark <+: c :: rest →
      maskFrom region (c :: rest) = shown c :: maskFrom region rest)
    (hmark : ∀ rest, maskFrom region (mark ++ rest) =
      (mark.map fun _ => ' ') ++ maskFrom .code rest)
    (h : EndsAt mark body rest closed) :
    maskFrom region (body ++ closing closed mark ++ rest) =
      body.map shown ++ (closing closed mark).map (fun _ => ' ') ++ maskFrom .code rest := by
  induction body with
  | nil =>
      cases closed with
      | true => exact hmark rest
      | false =>
          obtain ⟨_, rfl⟩ := h
          simp [closing, maskFrom]
  | cons c body ih =>
      simp only [List.cons_append, List.map_cons, hcons _ _ h.not_prefix, ih h.tail]

theorem maskFrom_lineComment (h : EndsAt ['\n'] body rest closed) :
    maskFrom .lineComment (body ++ closing closed ['\n'] ++ rest) =
      body.map (fun _ => ' ') ++ (closing closed ['\n']).map (fun _ => ' ') ++
        maskFrom .code rest := by
  refine maskFrom_of_endsAt (fun c rest hnone => ?_) (fun rest => rfl) h
  have hc : c ≠ '\n' := by
    rintro rfl
    exact hnone ⟨rest, rfl⟩
  simp [maskFrom]

theorem maskFrom_blockComment_of_endsAt (h : EndsAt ['*', '/'] body rest closed) :
    maskFrom .blockComment (body ++ closing closed ['*', '/'] ++ rest) =
      body.map (fun _ => ' ') ++ (closing closed ['*', '/']).map (fun _ => ' ') ++
        maskFrom .code rest := by
  refine maskFrom_of_endsAt (fun c rest hnone => maskFrom_blockComment_cons ?_) (fun rest => rfl) h
  rintro ⟨rfl, hhead⟩
  obtain ⟨rest, rfl⟩ := List.head?_eq_some_iff.1 hhead
  exact hnone ⟨rest, rfl⟩

theorem maskFrom_quoted_of_endsAt (h : EndsAt ['"'] body rest closed) :
    maskFrom .quoted (body ++ closing closed ['"'] ++ rest) =
      body ++ (closing closed ['"']).map (fun _ => ' ') ++ maskFrom .code rest := by
  have hcons : ∀ c rest, ¬ ['"'] <+: c :: rest →
      maskFrom .quoted (c :: rest) = id c :: maskFrom .quoted rest := by
    intro c rest hnone
    have hc : c ≠ '"' := by
      rintro rfl
      exact hnone ⟨rest, rfl⟩
    simp [maskFrom]
  simpa using maskFrom_of_endsAt hcons (fun _ => rfl) h

theorem maskFrom_literal_cons {c : Char} (hc : c ≠ '\'') (rest : List Char) :
    maskFrom .literal (c :: rest) = ' ' :: maskFrom .literal rest := by
  rw [maskFrom.eq_def]
  split <;> simp_all

theorem maskFrom_literal_of_ends (content : List Char) (h : LiteralEnds rest closed) :
    maskFrom .literal (escapedQuotes content ++ closing closed ['\''] ++ rest) =
      (escapedQuotes content).map (fun _ => ' ') ++ (closing closed ['\'']).map (fun _ => ' ') ++
        maskFrom .code rest := by
  induction content with
  | nil =>
      cases closed with
      | false =>
          obtain rfl : rest = [] := h
          simp [escapedQuotes, closing, maskFrom]
      | true =>
          have hlone : rest.head? ≠ some '\'' := h
          cases rest with
          | nil => rfl
          | cons c rest =>
              have hc : c ≠ '\'' := by simpa using hlone
              simp [escapedQuotes, closing, maskFrom, hc]
  | cons c content ih =>
      unfold escapedQuotes
      split_ifs with hc
      · simp only [List.cons_append, List.map_cons, maskFrom, ih]
      · simp only [List.cons_append, List.map_cons, maskFrom_literal_cons hc, ih]

/-- The mask takes a text apart as it splits into stretches. -/
theorem Stretch.Fits.maskFrom_eq {stretch : Stretch} (h : stretch.Fits rest) :
    maskFrom .code (stretch.text ++ rest) = stretch.shown ++ maskFrom .code rest := by
  cases stretch with
  | code c =>
      obtain ⟨hliteral, hquote, hline, hblock⟩ := h
      exact maskFrom_code_cons ⟨hliteral, hquote⟩ hline hblock
  | lineComment body closed =>
      have hinner := maskFrom_lineComment h
      simp only [text, shown, List.cons_append, List.map_cons, List.map_append, maskFrom, hinner]
  | blockComment body closed =>
      have hinner := maskFrom_blockComment_of_endsAt h
      simp only [text, shown, List.cons_append, List.map_cons, List.map_append, maskFrom, hinner]
  | literal content closed =>
      have hinner := maskFrom_literal_of_ends content h
      simp only [text, shown, List.cons_append, List.map_cons, List.map_append, maskFrom, hinner]
  | quotation body closed =>
      have hinner := maskFrom_quoted_of_endsAt h
      simp only [text, shown, List.cons_append, maskFrom, hinner]

theorem Splits.maskFrom_eq {stretches : List Stretch} (h : Splits stretches) :
    maskFrom .code (textOf stretches) = stretches.flatMap Stretch.shown := by
  induction stretches with
  | nil => rfl
  | cons stretch rest ih =>
      change maskFrom .code (stretch.text ++ textOf rest) = _
      rw [h.1.maskFrom_eq, ih h.2, List.flatMap_cons]

/-- The star of an opening mark does not also begin the closing one. -/
example : mask "/*/a*/ '--' b" = "            b" := by cbv

end Mask

/-! ### Words -/

/-- A longest run of word characters in a text. -/
structure IsRun (run text : List Char) : Prop where
  ne_nil : run ≠ []
  word : ∀ c ∈ run, isWordChar c = true
  stands : ∃ before after, text = before ++ run ++ after ∧
    (∀ c ∈ before.getLast?, isWordChar c = false) ∧ ∀ c ∈ after.head?, isWordChar c = false

section Words

variable {run current rest rest' : List Char} {c : Char}

theorem eq_nil_of_head_break (hword : ∀ c ∈ run, isWordChar c = true)
    (hbreak : ∀ c ∈ (run ++ rest).head?, isWordChar c = false) : run = [] := by
  cases run with
  | nil => rfl
  | cons c run =>
      have hc := hword c List.mem_cons_self
      rw [hbreak c rfl] at hc
      cases hc

theorem isRun_self (hne : run ≠ []) (hword : ∀ c ∈ run, isWordChar c = true)
    (hbreak : ∀ c ∈ rest.head?, isWordChar c = false) : IsRun run (run ++ rest) :=
  ⟨hne, hword, [], rest, rfl, by simp, hbreak⟩

theorem IsRun.behind (h : IsRun run rest) (hbreak : isWordChar c = false) (before : List Char) :
    IsRun run (before ++ c :: rest) := by
  obtain ⟨hne, hword, start, after, rfl, hstart, hafter⟩ := h
  refine ⟨hne, hword, before ++ c :: start, after, by simp, ?_, hafter⟩
  intro last hlast
  cases start with
  | nil =>
      obtain rfl : c = last := by simpa using hlast
      exact hbreak
  | cons other start =>
      refine hstart last ?_
      simpa [List.getLast?_append, List.getLast?_cons_cons] using hlast

/-- The first run of a text that begins with word characters is these, and the others stand behind
the character at which they break off. -/
theorem IsRun.cases (hword : ∀ c ∈ current, isWordChar c = true)
    (hbreak : ∀ c ∈ rest.head?, isWordChar c = false) (h : IsRun run (current ++ rest)) :
    run = current ∨ ∃ c after, rest = c :: after ∧ IsRun run after := by
  obtain ⟨hne, hrun, before, after, hsame, hbefore, hafter⟩ := h
  rw [List.append_assoc] at hsame
  rcases List.append_eq_append_iff.1 hsame with ⟨more, rfl, hrest⟩ | ⟨more, rfl, hmore⟩
  · right
    cases more with
    | nil =>
        subst hrest
        exact absurd (eq_nil_of_head_break hrun hbreak) hne
    | cons c more =>
        refine ⟨c, more ++ (run ++ after), hrest, hne, hrun, more, after, by simp, ?_, hafter⟩
        intro last hlast
        refine hbefore last ?_
        cases more with
        | nil => cases hlast
        | cons other more => simpa [List.getLast?_append, List.getLast?_cons_cons] using hlast
  · left
    obtain rfl : before = [] := by
      rw [List.eq_nil_iff_forall_not_mem]
      intro c hc
      have hlast := List.getLast?_eq_some_getLast (List.ne_nil_of_mem hc)
      have hwordLast := hword _
        (List.mem_append_left more (List.getLast_mem (List.ne_nil_of_mem hc)))
      rw [hbefore _ hlast] at hwordLast
      cases hwordLast
    rcases List.append_eq_append_iff.1 hmore with ⟨tail, rfl, rfl⟩ | ⟨tail, rfl, rfl⟩
    · rw [eq_nil_of_head_break (fun c hc => hword c (by simp [hc])) hafter]
      simp
    · rw [eq_nil_of_head_break (fun c hc => hrun c (by simp [hc])) hbreak]
      simp

theorem isRun_append_break_iff (hword : ∀ c ∈ current, isWordChar c = true)
    (hbreak : isWordChar c = false) :
    IsRun run (current ++ c :: rest) ↔ (current ≠ [] ∧ run = current) ∨ IsRun run rest := by
  have hhead : ∀ other ∈ (c :: rest).head?, isWordChar other = false := by simpa using hbreak
  constructor
  · intro hrun
    rcases hrun.cases hword hhead with rfl | ⟨_, _, hsame, hafter⟩
    · exact Or.inl ⟨hrun.ne_nil, rfl⟩
    · obtain ⟨rfl, rfl⟩ := List.cons.inj hsame
      exact Or.inr hafter
  · rintro (⟨hne, rfl⟩ | hrun)
    · exact isRun_self hne hword hhead
    · exact hrun.behind hbreak current

/-- The unfinished run is a run of the text that it stands before. -/
theorem mem_wordsFrom_iff {text : List Char} (hword : ∀ c ∈ current, isWordChar c = true) :
    run ∈ wordsFrom current text ↔ IsRun run (current.reverse ++ text) := by
  induction text generalizing current with
  | nil =>
      have hreverse : ∀ c ∈ current.reverse, isWordChar c = true := by simpa using hword
      have hend : ∀ c ∈ ([] : List Char).head?, isWordChar c = false := by simp
      rw [wordsFrom]
      constructor
      · intro hrun
        split_ifs at hrun with hempty
        · cases hrun
        · obtain rfl := List.mem_singleton.1 hrun
          exact isRun_self (by simpa using hempty) hreverse hend
      · intro hrun
        rcases hrun.cases hreverse hend with rfl | ⟨c, after, hafter, _⟩
        · simpa using hrun.ne_nil
        · cases hafter
  | cons c text ih =>
      have hrest : run ∈ wordsFrom [] text ↔ IsRun run text := ih (List.forall_mem_nil _)
      rw [wordsFrom]
      cases hc : isWordChar c with
      | true =>
          rw [if_pos rfl, ih (List.forall_mem_cons.2 ⟨hc, hword⟩), List.reverse_cons,
            List.append_assoc, List.singleton_append]
      | false =>
          have hreverse : ∀ c ∈ current.reverse, isWordChar c = true := by simpa using hword
          rw [isRun_append_break_iff hreverse hc, ← hrest]
          cases current <;> simp

theorem mem_identifierWords_iff {query word : String} : word ∈ identifierWords query ↔
    ∃ run, IsRun run (mask query).toList ∧ lower (String.ofList run) = word := by
  rw [identifierWords, Cache.mem_nameSet, List.mem_map]
  simp only [words, mem_wordsFrom_iff (List.forall_mem_nil _), List.reverse_nil, List.nil_append]

theorem wordsFrom_blanks (text rest : List Char) :
    wordsFrom [] ((text.map fun _ => ' ') ++ rest) = wordsFrom [] rest := by
  have hspace : isWordChar ' ' = false := by decide
  induction text with
  | nil => rfl
  | cons c text ih => rw [List.map_cons, List.cons_append, wordsFrom_of_break hspace, ih]

/-- Two stretches that differ at most in what a comment or a literal says. -/
inductive Alike : Stretch → Stretch → Prop where
  | same (stretch : Stretch) : Alike stretch stretch
  | lineComment (body body' : List Char) (closed closed' : Bool) :
      Alike (.lineComment body closed) (.lineComment body' closed')
  | blockComment (body body' : List Char) (closed closed' : Bool) :
      Alike (.blockComment body closed) (.blockComment body' closed')
  | literal (content content' : List Char) (closed closed' : Bool) :
      Alike (.literal content closed) (.literal content' closed')

theorem wordsFrom_append_congr (shown : List Char)
    (h : ∀ current, wordsFrom current rest = wordsFrom current rest') (current : List Char) :
    wordsFrom current (shown ++ rest) = wordsFrom current (shown ++ rest') := by
  induction shown generalizing current with
  | nil => exact h current
  | cons c shown ih => simp only [List.cons_append, wordsFrom, ih]

theorem wordsFrom_comment_congr (text text' : List Char)
    (h : ∀ current, wordsFrom current rest = wordsFrom current rest') (current : List Char) :
    wordsFrom current (' ' :: ((text.map fun _ => ' ') ++ rest)) =
      wordsFrom current (' ' :: ((text'.map fun _ => ' ') ++ rest')) := by
  have hspace : isWordChar ' ' = false := by decide
  simp only [wordsFrom, hspace, Bool.false_eq_true, ↓reduceIte, wordsFrom_blanks, h]

theorem Alike.wordsFrom_eq {stretch stretch' : Stretch} (h : Alike stretch stretch')
    (hrest : ∀ current, wordsFrom current rest = wordsFrom current rest') (current : List Char) :
    wordsFrom current (stretch.shown ++ rest) = wordsFrom current (stretch'.shown ++ rest') := by
  cases h with
  | same => exact wordsFrom_append_congr stretch.shown hrest current
  | lineComment => exact wordsFrom_comment_congr _ _ hrest current
  | blockComment => exact wordsFrom_comment_congr _ _ hrest current
  | literal => exact wordsFrom_comment_congr _ _ hrest current

theorem wordsFrom_of_alike {first second : List Stretch} (h : List.Forall₂ Alike first second)
    (current : List Char) :
    wordsFrom current (first.flatMap Stretch.shown) =
      wordsFrom current (second.flatMap Stretch.shown) := by
  induction h generalizing current with
  | nil => rfl
  | cons halike _ ih => exact halike.wordsFrom_eq ih current

end Words

/-! ### Query texts -/

/-- Stretches that a query splits into. -/
def SplitsInto (query : String) (stretches : List Stretch) : Prop :=
  Splits stretches ∧ textOf stretches = query.toList

theorem SplitsInto.toList_mask {query : String} {stretches : List Stretch}
    (h : SplitsInto query stretches) : (mask query).toList = stretches.flatMap Stretch.shown := by
  rw [mask, String.toList_ofList, ← h.2, h.1.maskFrom_eq]

theorem SplitsInto.identifierWords_eq {query other : String} {stretches stretches' : List Stretch}
    (h : SplitsInto query stretches) (h' : SplitsInto other stretches')
    (halike : List.Forall₂ Alike stretches stretches') :
    identifierWords query = identifierWords other := by
  rw [identifierWords, identifierWords, words, words, h.toList_mask, h'.toList_mask,
    wordsFrom_of_alike halike]

/-- What the mask and the words of a query are by its stretches. -/
structure ByStretches (query : String) : Prop where
  /-- A query splits into stretches in one way. -/
  splits : ∃! stretches, SplitsInto query stretches
  /-- The mask shows each stretch where it stands. -/
  shown : ∀ stretches, SplitsInto query stretches →
    (mask query).toList = stretches.flatMap Stretch.shown
  aligned : ∀ stretch : Stretch, stretch.shown.length = stretch.text.length
  length : (mask query).length = query.length
  /-- The words are the longest runs of the masked text in lower case, each once. -/
  words : ∀ word, word ∈ identifierWords query ↔
    ∃ run, IsRun run (mask query).toList ∧ lower (String.ofList run) = word
  nodup : (identifierWords query).Nodup
  /-- What comments and literals say makes no difference to the words. -/
  alike : ∀ other stretches stretches', SplitsInto query stretches → SplitsInto other stretches' →
    List.Forall₂ Alike stretches stretches' → identifierWords query = identifierWords other

theorem byStretches (query : String) : ByStretches query where
  splits := by
    obtain ⟨stretches, hsplits, htext⟩ := exists_splits query.toList
    refine ⟨stretches, ⟨hsplits, htext⟩, fun others hothers => ?_⟩
    exact hothers.1.unique hsplits (hothers.2.trans htext.symm)
  shown _ h := h.toList_mask
  aligned := Stretch.length_shown
  length := by
    obtain ⟨stretches, hsplits, htext⟩ := exists_splits query.toList
    have hmask : (mask query).toList = stretches.flatMap Stretch.shown :=
      SplitsInto.toList_mask ⟨hsplits, htext⟩
    rw [← String.length_toList, ← String.length_toList, hmask, ← htext, textOf]
    simp only [List.length_flatMap, Stretch.length_shown]
  words _ := mem_identifierWords_iff
  nodup := Cache.nodup_nameSet _
  alike _ _ _ h h' halike := h.identifierWords_eq h' halike

end LiveTables.Sql
