import LiveTables.Proofs.Numerals
import LiveTables.Toml.Quoted

/-!
# Quoted text is read as it was meant

Whatever quotation a text is written in, reading gives the text back and stops behind it. Between
double quotes each character is escaped on its own; quotes that stand unescaped in a text of several
lines are never three in a row, so only the closing ones close it.
-/

namespace LiveTables.Toml

open LiveTables.Text

/-- What reading gives when a character of the text comes first. -/
def withFirst (c : Char) (result : Option (List Char × List Char)) :
    Option (List Char × List Char) :=
  result.map fun (text, rest) => (c :: text, rest)

section Steps

variable {lines : Bool} {phase next : Phase} {c char : Char} {text rest after : List Char}

theorem readBasic_of_pass (h : step lines phase c rest = .pass next) :
    readBasic lines phase (c :: rest) = readBasic lines next rest := by
  rw [readBasic, h]

theorem readBasic_of_take (h : step lines phase c rest = .take char) :
    readBasic lines phase (c :: rest) = withFirst char (readBasic lines .text rest) := by
  rw [readBasic, h]
  rfl

theorem readBasic_of_close (h : close? lines c rest = some (text, after)) :
    readBasic lines .text (c :: rest) = some (text, after) := by
  simp only [readBasic, step, stepText, h]

end Steps

/-! ### Characters between double quotes -/

/-- What is written for one character, if it is not a quote that stands unescaped. -/
def escaped (lines : Bool) (c : Char) : List Char := escapeFrom lines 0 0 [c]

theorem escapeFrom_cons_quote {lines : Bool} {limit quotes : Nat} {text : List Char}
    (h : quotes < limit) :
    escapeFrom lines limit quotes ('"' :: text) = '"' ::
      escapeFrom lines limit (quotes + 1) text := by
  simp [escapeFrom, Nat.not_le.2 h]

theorem escapeFrom_cons {lines : Bool} {limit quotes : Nat} {c : Char} {text : List Char}
    (h : c = '"' → limit ≤ quotes) :
    escapeFrom lines limit quotes (c :: text) =
      escaped lines c ++ escapeFrom lines limit 0 text := by
  by_cases hquote : c = '"'
  · subst hquote
    simp [escapeFrom, escaped, h rfl]
  · simp only [escapeFrom, escaped, beq_iff_eq, hquote, ↓reduceIte]
    split_ifs <;> simp

/-- What is written for one character starts with a backslash, or is that character. -/
theorem escaped_eq_cons (lines : Bool) (c : Char) : ∃ first more, escaped lines c = first :: more ∧
    (first = '\\' ∨ first = c ∧ c ≠ '"' ∧ needsEscape c = false) := by
  by_cases hquote : c = '"'
  · subst hquote
    exact ⟨'\\', ['"'], by simp [escaped, escapeFrom]⟩
  · simp only [escaped, escapeFrom, beq_iff_eq, hquote, ↓reduceIte]
    split_ifs <;> simp_all

theorem head?_escaped_ne_quote (lines : Bool) (c : Char) (rest : List Char) :
    (escaped lines c ++ rest).head? ≠ some '"' := by
  obtain ⟨first, more, hwritten, rfl | ⟨rfl, hquote, -⟩⟩ := escaped_eq_cons lines c
  · simp [hwritten]
  · simpa [hwritten] using hquote

theorem closeLines_eq_none {mark : Char} {text : List Char} {i : Nat} (hi : i < 3)
    (h : text[i]? ≠ some mark) : closeLines mark text = none := by
  match text, i, hi with
  | [], _, _ => rfl
  | [_], _, _ => rfl
  | [_, _], _, _ => rfl
  | a :: b :: c :: rest, 0, _ => simp_all [closeLines]
  | a :: b :: c :: rest, 1, _ => simp_all [closeLines]
  | a :: b :: c :: rest, 2, _ => simp_all [closeLines]

theorem close?_eq_none (lines : Bool) {c : Char} (h : c ≠ '"') (rest : List Char) :
    close? lines c rest = none := by
  cases lines with
  | false => simp [close?, h]
  | true => exact closeLines_eq_none (i := 0) (by decide) (by simpa using h)

/-- A control character is one of the first 32 or the last of ASCII. -/
theorem lt_of_needsEscape {c : Char} (h : needsEscape c = true) : c.toNat < 128 := by
  simp only [needsEscape, Bool.and_eq_true, Bool.or_eq_true, decide_eq_true_eq, beq_iff_eq] at h
  omega

theorem charOf?_toNat (c : Char) : charOf? c.toNat = some c := by
  have hvalid : c.toNat.isValidChar := c.valid
  rw [charOf?, dif_pos hvalid]
  exact congrArg some (Char.ext (UInt32.toNat_inj.1 rfl))

theorem hexDigitValue?_hexDigit {d : Nat} (hd : d < 16) :
    hexDigitValue? (hexDigit d).toUpper = some d := by
  decide +revert

/-- The four digits behind `\u` are read as the number they were written for. -/
theorem readBasic_digits (lines : Bool) {c : Char} (hc : c.toNat < 128) (rest : List Char) :
    readBasic lines (.code 3 0) (upperHex (paddedHex 4 c.toNat) ++ rest) =
      withFirst c (readBasic lines .text rest) := by
  have hzero : hexDigitValue? '0' = some 0 := by decide
  have hhigh := hexDigitValue?_hexDigit (show c.toNat / 16 < 16 by omega)
  have hlow := hexDigitValue?_hexDigit (show c.toNat % 16 < 16 by omega)
  have hvalue : 16 * (16 * (16 * (16 * 0 + 0) + 0) + c.toNat / 16) + c.toNat % 16 = c.toNat := by
    omega
  have hdigits : upperHex (paddedHex 4 c.toNat) =
      ['0', '0', (hexDigit (c.toNat / 16)).toUpper, (hexDigit (c.toNat % 16)).toUpper] := by
    rw [paddedHex_four hc]
    rfl
  rw [hdigits]
  simp only [List.cons_append, List.nil_append, readBasic, step, stepCode, hzero, hhigh, hlow,
    hvalue, charOf?_toNat, withFirst]

theorem isTextChar_of_not_needsEscape {c : Char} (h : ¬ needsEscape c = true) (hline : c ≠ '\n') :
    isTextChar c = true := by
  have htab : ('\t').toNat = 9 := rfl
  by_cases hc : c = '\t'
  · simp [isTextChar, hc]
  · simp only [needsEscape, isTextChar, Bool.and_eq_true, Bool.or_eq_true, decide_eq_true_eq,
      beq_iff_eq, bne_iff_ne] at h ⊢
    simp [hc, hline] at h ⊢
    omega

/-- Reading takes what is written for one character as that character. -/
theorem readBasic_escaped (lines : Bool) (c : Char) (rest : List Char) :
    readBasic lines .text (escaped lines c ++ rest) = withFirst c (readBasic lines .text rest) := by
  have hescape : ∀ text, readBasic lines .text ('\\' :: text) = readBasic lines .escape text := by
    intro text
    apply readBasic_of_pass
    simp [step, stepText, close?_eq_none lines (by decide : '\\' ≠ '"')]
  have hshort : ∀ letter char, shortEscape? letter = some char → letter ≠ 'u' → letter ≠ 'U' →
      readBasic lines .text ('\\' :: letter :: rest) =
        withFirst char (readBasic lines .text rest) := by
    intro letter char hletter hu hU
    rw [hescape]
    apply readBasic_of_take
    simp [step, stepEscape, hu, hU, hletter]
  by_cases hquote : c = '"'
  · subst hquote
    exact hshort '"' '"' rfl (by decide) (by decide)
  simp only [escaped, escapeFrom, beq_iff_eq, hquote, ↓reduceIte]
  split_ifs with hb ht hn hf hr hs he
  · exact hb ▸ hshort 'b' _ rfl (by decide) (by decide)
  · exact ht ▸ hshort 't' _ rfl (by decide) (by decide)
  · obtain ⟨rfl, -⟩ : c = '\n' ∧ lines = false := by simpa using hn
    exact hshort 'n' _ rfl (by decide) (by decide)
  · exact hf ▸ hshort 'f' _ rfl (by decide) (by decide)
  · exact hr ▸ hshort 'r' _ rfl (by decide) (by decide)
  · exact hs ▸ hshort '\\' _ rfl (by decide) (by decide)
  · calc readBasic lines .text (['\\', 'u'] ++ upperHex (paddedHex 4 c.toNat) ++ [] ++ rest)
        = readBasic lines .escape ('u' :: (upperHex (paddedHex 4 c.toNat) ++ rest)) := by
          simp [hescape]
      _ = readBasic lines (.code 3 0) (upperHex (paddedHex 4 c.toNat) ++ rest) := by
          simp [readBasic, step, stepEscape]
      _ = withFirst c (readBasic lines .text rest) :=
          readBasic_digits lines (lt_of_needsEscape he) rest
  · have hopen := close?_eq_none lines hquote rest
    apply readBasic_of_take
    by_cases hline : c = '\n'
    · obtain rfl : lines = true := by simpa [hline] using hn
      subst hline
      simp [step, stepText, hopen]
    · have htext := isTextChar_of_not_needsEscape he hline
      simp [step, stepText, hopen, hs, hline, hr, htext]

theorem readBasic_escapeFrom (text rest : List Char) :
    readBasic false .text (escapeFrom false 0 0 text ++ '"' :: rest) = some (text, rest) := by
  induction text with
  | nil => rfl
  | cons c text ih =>
      rw [escapeFrom_cons (fun _ => Nat.le_refl 0), List.append_assoc, readBasic_escaped, ih]
      rfl

/-! ### Text of several lines -/

section Lines

variable {mark : Char}

/-- Where three quotes in a row would close the text: only at its end, unless they are in it. -/
theorem closeLines_append (body : List Char) {rest : List Char} (hrest : rest.head? ≠ some mark)
    (hbody : ¬ [mark, mark, mark] <+: body) :
    closeLines mark (body ++ ([mark, mark, mark] ++ rest)) =
      if body.all (· == mark) then some (body, rest) else none := by
  have hclose : ∀ run : List Char, (run = [] ∨ run = [mark] ∨ run = [mark, mark]) →
      closeLines mark (run ++ ([mark, mark, mark] ++ rest)) = some (run, rest) := by
    rintro run (rfl | rfl | rfl) <;> cases rest with
      | nil => simp [closeLines]
      | cons c rest => cases rest <;> simp_all [closeLines]
  match body with
  | [] => simpa using hclose [] (by simp)
  | [a] =>
      by_cases ha : a = mark
      · simpa [ha] using hclose [mark] (by simp)
      · simpa [ha] using closeLines_eq_none (i := 0) (by decide) (by simp [ha])
  | [a, b] =>
      by_cases ha : a = mark
      · by_cases hb : b = mark
        · simpa [ha, hb] using hclose [mark, mark] (by simp)
        · simpa [ha, hb] using closeLines_eq_none (i := 1) (by decide) (by simp [hb])
      · simpa [ha] using closeLines_eq_none (i := 0) (by decide) (by simp [ha])
  | a :: b :: c :: body =>
      have hmarks : a = mark → b = mark → c ≠ mark := by
        rintro rfl rfl rfl
        exact hbody ⟨body, rfl⟩
      have hall : (a :: b :: c :: body).all (· == mark) = false := by
        simp only [List.all_cons, Bool.and_eq_false_iff, beq_eq_false_iff_ne]
        grind
      have hopen : (a == mark && b == mark && c == mark) = false := by
        simp only [Bool.and_eq_false_iff, beq_eq_false_iff_ne]
        grind
      simp only [hall, List.cons_append, closeLines, hopen, Bool.false_eq_true, ↓reduceIte]

theorem not_prefix_of_head? {text : List Char} (count : Nat) (hcount : 0 < count)
    (h : text.head? ≠ some mark) : ¬ List.replicate count mark <+: text := by
  rintro ⟨rest, rfl⟩
  obtain ⟨n, rfl⟩ := Nat.exists_eq_succ_of_ne_zero hcount.ne'
  exact h rfl

/-- Behind `quotes` quotes, fewer than three in all are written before an escape or another
character. -/
theorem not_prefix_escapeFrom {quotes : Nat} (h : quotes ≤ 2) (text : List Char) :
    ¬ List.replicate (3 - quotes) '"' <+: escapeFrom true 2 quotes text := by
  induction text generalizing quotes with
  | nil => exact not_prefix_of_head? _ (by omega) (by simp [escapeFrom])
  | cons c text ih =>
      by_cases hraw : c = '"' ∧ quotes < 2
      · obtain ⟨rfl, hquotes⟩ := hraw
        have hcount : 3 - quotes = (3 - (quotes + 1)) + 1 := by omega
        rw [escapeFrom_cons_quote hquotes, hcount, List.replicate_succ, List.prefix_cons_inj]
        exact ih (by omega)
      · rw [escapeFrom_cons (by grind)]
        exact not_prefix_of_head? _ (by omega) (head?_escaped_ne_quote true c _)

/-- Quotes alone are written as they are. -/
theorem eq_of_all_escapeFrom (quotes : Nat) {text : List Char}
    (h : (escapeFrom true 2 quotes text).all (· == '"') = true) :
    escapeFrom true 2 quotes text = text := by
  induction text generalizing quotes with
  | nil => rfl
  | cons c text ih =>
      by_cases hraw : c = '"' ∧ quotes < 2
      · obtain ⟨rfl, hquotes⟩ := hraw
        rw [escapeFrom_cons_quote hquotes] at h ⊢
        rw [ih (quotes + 1) (by simpa using h)]
      · rw [escapeFrom_cons (by grind)] at h
        obtain ⟨first, more, hwritten, -⟩ := escaped_eq_cons true c
        have hne := head?_escaped_ne_quote true c (escapeFrom true 2 0 text)
        simp_all

theorem readBasic_escapeFrom_lines {quotes : Nat} (hquotes : quotes ≤ 2) (text : List Char)
    {rest : List Char} (hrest : rest.head? ≠ some '"') :
    readBasic true .text (escapeFrom true 2 quotes text ++ (['"', '"', '"'] ++ rest)) =
      some (text, rest) := by
  induction text generalizing quotes with
  | nil =>
      apply readBasic_of_close
      exact closeLines_append [] hrest (by simp)
  | cons c text ih =>
      by_cases hraw : c = '"' ∧ quotes < 2
      · obtain ⟨rfl, hlt⟩ := hraw
        have hthree : ¬ ['"', '"', '"'] <+: escapeFrom true 2 quotes ('"' :: text) := by
          have hfewer : List.replicate (3 - quotes) '"' <+: List.replicate 3 '"' :=
            ⟨List.replicate quotes '"', by rw [List.replicate_append_replicate]; congr; omega⟩
          exact fun hprefix => not_prefix_escapeFrom hquotes _ (hfewer.trans hprefix)
        have hclose := closeLines_append _ hrest hthree
        rw [escapeFrom_cons_quote hlt, List.cons_append] at hclose ⊢
        split_ifs at hclose with hall
        · have hbody : escapeFrom true 2 (quotes + 1) text = text :=
            eq_of_all_escapeFrom (quotes + 1) (by simpa using hall)
          rw [hbody] at hclose ⊢
          exact readBasic_of_close hclose
        · calc readBasic true .text
                ('"' :: (escapeFrom true 2 (quotes + 1) text ++ (['"', '"', '"'] ++ rest)))
              = withFirst '"' (readBasic true .text
                (escapeFrom true 2 (quotes + 1) text ++ (['"', '"', '"'] ++ rest))) := by
                apply readBasic_of_take
                simp only [step, stepText, close?, ↓reduceIte, hclose]
                rfl
            _ = some ('"' :: text, rest) := by
                rw [ih (by omega)]
                rfl
      · rw [escapeFrom_cons (by grind), List.append_assoc, readBasic_escaped, ih (by decide)]
        rfl

/-! ### Text between single quotes -/

theorem longestRun_mono {run longer : Nat} (h : run ≤ longer) (text : List Char) :
    longestRun mark run text ≤ longestRun mark longer text := by
  induction text generalizing run longer with
  | nil => exact h
  | cons c text ih =>
      simp only [longestRun]
      split_ifs
      · exact ih (by omega)
      · omega

theorem le_longestRun (mark : Char) (run : Nat) (text : List Char) :
    run ≤ longestRun mark run text := by
  induction text generalizing run with
  | nil => exact Nat.le_refl run
  | cons c text ih =>
      simp only [longestRun]
      split_ifs
      · exact (Nat.le_succ run).trans (ih (run + 1))
      · omega

theorem not_prefix_of_longestRun {run : Nat} {text : List Char} (h : longestRun mark run text ≤ 2) :
    ¬ List.replicate (3 - run) mark <+: text := by
  have hrun := (le_longestRun mark run text).trans h
  induction text generalizing run with
  | nil => exact not_prefix_of_head? _ (by omega) (by simp)
  | cons c text ih =>
      simp only [longestRun, beq_iff_eq] at h
      split_ifs at h with hc
      · have hcount : 3 - run = (3 - (run + 1)) + 1 := by
          have := (le_longestRun mark (run + 1) text).trans h
          omega
        rw [hcount, List.replicate_succ, hc, List.prefix_cons_inj]
        exact ih h ((le_longestRun _ _ _).trans h)
      · exact not_prefix_of_head? _ (by omega) (by simpa using hc)

theorem not_mem_of_longestRun {text : List Char} (h : longestRun mark 0 text = 0) :
    mark ∉ text := by
  induction text with
  | nil => simp
  | cons c text ih =>
      simp only [longestRun, beq_iff_eq] at h
      split_ifs at h with hc
      · have := le_longestRun mark (0 + 1) text
        omega
      · simp only [List.mem_cons, not_or]
        exact ⟨fun heq => hc heq.symm, ih (by omega)⟩

theorem longestRun_tail_le (c : Char) (text : List Char) :
    longestRun mark 0 text ≤ longestRun mark 0 (c :: text) := by
  simp only [longestRun]
  split_ifs
  · exact longestRun_mono (Nat.zero_le _) text
  · omega

end Lines

theorem readLiteral_append {text : List Char} (hplain : ∀ c ∈ text, isTextChar c = true)
    (hmark : '\'' ∉ text) (rest : List Char) :
    readLiteral (text ++ '\'' :: rest) = some (text, rest) := by
  induction text with
  | nil => rfl
  | cons c text ih =>
      rw [List.mem_cons, not_or] at hmark
      have hc : isTextChar c = true := hplain c (by simp)
      have hne : c ≠ '\'' := fun heq => hmark.1 heq.symm
      have hrest := ih (fun c hc => hplain c (by simp [hc])) hmark.2
      rw [List.cons_append, readLiteral, if_pos hc, hrest]
      · rfl
      · exact hne

theorem readLiteralLines_of_close {text after rest : List Char}
    (h : closeLines '\'' text = some (after, rest)) :
    readLiteralLines text = some (after, rest) := by
  unfold readLiteralLines
  rw [h]

theorem readLiteralLines_of_take {c : Char} {rest : List Char} (hplain : needsEscape c = false)
    (h : closeLines '\'' (c :: rest) = none) :
    readLiteralLines (c :: rest) = withFirst c (readLiteralLines rest) := by
  have hreturn : c ≠ '\r' := by
    rintro rfl
    cases hplain
  have htake : (isTextChar c || c == '\n') = true := by
    by_cases hline : c = '\n'
    · simp [hline]
    · simp [isTextChar_of_not_needsEscape (by simp [hplain]) hline]
  rw [readLiteralLines.eq_def, h]
  simp [htake, hreturn, withFirst]

theorem readLiteralLines_append {text rest : List Char}
    (hplain : ∀ c ∈ text, needsEscape c = false) (hmarks : longestRun '\'' 0 text ≤ 2)
    (hrest : rest.head? ≠ some '\'') :
    readLiteralLines (text ++ (['\'', '\'', '\''] ++ rest)) = some (text, rest) := by
  induction text with
  | nil =>
      apply readLiteralLines_of_close
      exact closeLines_append [] hrest (by simp)
  | cons c text ih =>
      have hclose := closeLines_append _ hrest (not_prefix_of_longestRun hmarks)
      split_ifs at hclose
      · exact readLiteralLines_of_close hclose
      · rw [List.cons_append] at hclose ⊢
        rw [readLiteralLines_of_take (hplain c (by simp)) hclose,
          ih (fun c hc => hplain c (by simp [hc])) ((longestRun_tail_le c text).trans hmarks)]
        rfl

/-! ### Any text -/

/-- A text that opens with a line end gets one more in front, which reading passes over. -/
theorem afterLineEnd_opening (text body : List Char)
    (hbody : ∀ c, body.head? = some c → c ≠ '\r' ∧ (c = '\n' → '\n' ∈ text)) :
    afterLineEnd ((if text.contains '\n' then ['\n'] else []) ++ body) = body := by
  split_ifs with hlines
  · rfl
  · rw [List.nil_append]
    unfold afterLineEnd
    split
    · exact absurd (List.contains_iff_mem.2 ((hbody '\n' rfl).2 rfl)) hlines
    · exact absurd rfl (hbody '\r' rfl).1
    · rfl

theorem head?_escapeFrom {text rest : List Char} {c : Char}
    (hc : (escapeFrom true 2 0 text ++ '"' :: rest).head? = some c) :
    c ≠ '\r' ∧ (c = '\n' → '\n' ∈ text) := by
  have hreturn : needsEscape '\r' = true := by decide
  cases text with
  | nil =>
      obtain rfl : '"' = c := by simpa [escapeFrom] using hc
      decide
  | cons first text =>
      by_cases hquote : first = '"'
      · obtain rfl : '"' = c := by simpa [hquote, escapeFrom_cons_quote] using hc
        simp
      · obtain ⟨written, more, hwritten, hfirst⟩ := escaped_eq_cons true first
        obtain rfl : written = c := by
          simpa [escapeFrom_cons (fun h => absurd h hquote), hwritten] using hc
        rcases hfirst with rfl | ⟨rfl, -, hplain⟩
        · simp
        · exact ⟨fun h => by simp [h, hreturn] at hplain, fun h => by simp [h]⟩

section Quotation

variable {text : List Char}

theorem plain_of_literal (h : Quotation.of text = .literal) :
    (∀ c ∈ text, needsEscape c = false) ∧ '\'' ∉ text ∧ '\n' ∉ text := by
  simp only [Quotation.of] at h
  split_ifs at h with hbasic hliteral
  simp only [Bool.and_eq_true, Bool.not_eq_true', List.any_eq_false, beq_iff_eq] at hliteral
  obtain ⟨⟨hplain, hsingles⟩, hline⟩ := hliteral
  exact ⟨fun c hc => by simpa using hplain c hc, not_mem_of_longestRun hsingles,
    by simpa using hline⟩

theorem plain_of_literalLines (h : Quotation.of text = .literalLines) :
    (∀ c ∈ text, needsEscape c = false) ∧ longestRun '\'' 0 text ≤ 2 := by
  simp only [Quotation.of] at h
  split_ifs at h with hbasic hliteral hlines hliteralLines
  simp only [Bool.and_eq_true, Bool.not_eq_true', List.any_eq_false, decide_eq_true_eq]
    at hliteralLines
  exact ⟨fun c hc => by simpa using hliteralLines.1 c hc, hliteralLines.2⟩

end Quotation

theorem readQuoted_basic {body : List Char} (h : ¬ ['"', '"'] <+: body) :
    readQuoted ('"' :: body) = readBasic false .text body := by
  unfold readQuoted
  split
  · next heq => exact absurd ⟨_, (List.cons.inj heq).2.symm⟩ h
  · simp_all
  · simp_all
  · simp_all
  · simp_all

theorem readQuoted_literal {body : List Char} (h : ¬ ['\'', '\''] <+: body) :
    readQuoted ('\'' :: body) = readLiteral body := by
  unfold readQuoted
  split
  · simp_all
  · next heq => exact absurd ⟨_, (List.cons.inj heq).2.symm⟩ h
  · simp_all
  · simp_all
  · simp_all

/-- Reading a text that was written gives the text, and stops behind it. -/
theorem readQuoted_quoteText (text : List Char) {rest : List Char}
    (hdouble : rest.head? ≠ some '"') (hsingle : rest.head? ≠ some '\'') :
    readQuoted (quoteText text ++ rest) = some (text, rest) := by
  have hreturn : needsEscape '\r' = true := by decide
  rw [quoteText]
  cases hform : Quotation.of text with
  | basic =>
      have hshort : ¬ ['"', '"'] <+: escapeFrom false 0 0 text ++ '"' :: rest := by
        cases text with
        | nil =>
            rw [escapeFrom, List.nil_append, List.prefix_cons_inj]
            exact not_prefix_of_head? 1 (by decide) hdouble
        | cons c text =>
            rw [escapeFrom_cons (fun _ => le_rfl), List.append_assoc]
            exact not_prefix_of_head? 2 (by decide) (head?_escaped_ne_quote _ _ _)
      calc readQuoted (['"'] ++ escapeFrom false 0 0 text ++ ['"'] ++ rest)
          = readBasic false .text (escapeFrom false 0 0 text ++ '"' :: rest) := by
            rw [← readQuoted_basic hshort]
            simp
        _ = some (text, rest) := readBasic_escapeFrom text rest
  | literal =>
      obtain ⟨hplain, hmark, hline⟩ := plain_of_literal hform
      have hshort : ¬ ['\'', '\''] <+: text ++ '\'' :: rest := by
        cases text with
        | nil =>
            rw [List.nil_append, List.prefix_cons_inj]
            exact not_prefix_of_head? 1 (by decide) hsingle
        | cons c text => exact not_prefix_of_head? 2 (by decide) (by grind)
      have htext : ∀ c ∈ text, isTextChar c = true := fun c hc =>
        isTextChar_of_not_needsEscape (by simp [hplain c hc]) (by grind)
      calc readQuoted (['\''] ++ text ++ ['\''] ++ rest)
          = readLiteral (text ++ '\'' :: rest) := by
            rw [← readQuoted_literal hshort]
            simp
        _ = some (text, rest) := readLiteral_append htext hmark rest
  | basicLines =>
      have hopening := afterLineEnd_opening text
        (escapeFrom true 2 0 text ++ '"' :: ('"' :: '"' :: rest)) fun _ => head?_escapeFrom
      calc readQuoted (['"', '"', '"'] ++ (if text.contains '\n' then ['\n'] else []) ++
            escapeFrom true 2 0 text ++ ['"', '"', '"'] ++ rest)
          = readBasic true .text (escapeFrom true 2 0 text ++ '"' :: ('"' :: '"' :: rest)) := by
            rw [← hopening]
            simp [readQuoted]
        _ = some (text, rest) := readBasic_escapeFrom_lines (Nat.zero_le 2) text hdouble
  | literalLines =>
      obtain ⟨hplain, hmarks⟩ := plain_of_literalLines hform
      have hopening := afterLineEnd_opening text
        (text ++ '\'' :: ('\'' :: '\'' :: rest)) (by cases text <;> grind)
      calc readQuoted (['\'', '\'', '\''] ++ (if text.contains '\n' then ['\n'] else []) ++
            text ++ ['\'', '\'', '\''] ++ rest)
          = readLiteralLines (text ++ '\'' :: ('\'' :: '\'' :: rest)) := by
            rw [← hopening]
            simp [readQuoted]
        _ = some (text, rest) := readLiteralLines_append hplain hmarks hsingle

end LiveTables.Toml
