import Mathlib
import LiveTables.Proofs.TextRuns
import LiveTables.Sql.Reader
import LiveTables.Sql.Render

/-!
# Written statements are read back

The statements that tables are dropped, made and filled with are read by the store as what they were
written for, whatever the names in them: a quoted name ends at its own closing quote. Each written
part reads as its tokens wherever the text behind it cannot become part of it, so the parts can be
put together without looking into them again.
-/

namespace LiveTables.Sql

open LiveTables.Text

/-- A text that cannot lengthen a bare name or a quotation that stands before it. -/
def Breaks (text : List Char) : Prop :=
  ∀ c, text.head? = some c → continuesName c = false ∧ c ≠ '"'

/-- A text that reads as the given tokens wherever nothing behind it can become part of it. -/
def ReadsAs (text : List Char) (expected : List Token) : Prop :=
  ∀ rest, Breaks rest → tokens (text ++ rest) = (tokens rest).map (expected ++ ·)

theorem breaks_nil : Breaks [] := by
  intro c hc
  simp at hc

theorem Breaks.append {text : List Char} (h : Breaks text) {rest : List Char}
    (hrest : Breaks rest) : Breaks (text ++ rest) := by
  cases text with
  | nil => exact hrest
  | cons c text => exact h

theorem breaks_cons {c : Char} (h : continuesName c = false) (hquote : c ≠ '"') (text : List Char) :
    Breaks (c :: text) := by
  intro d hd
  simp only [List.head?_cons, Option.some.injEq] at hd
  exact hd ▸ ⟨h, hquote⟩

/-! ### Tokens -/

theorem readQuoted_doubleQuotes (name rest : List Char) (h : rest.head? ≠ some '"') :
    readQuoted '"' (doubleQuotes name ++ '"' :: rest) = some (name, rest) := by
  induction name with
  | nil =>
      cases rest with
      | nil => simp [doubleQuotes, readQuoted]
      | cons next after =>
          have hnext : next ≠ '"' := by simpa using h
          simp [doubleQuotes, readQuoted, hnext]
  | cons c name ih =>
      by_cases hc : c = '"'
      · simp [doubleQuotes, readQuoted, hc, ih]
      · simp only [doubleQuotes, hc, ↓reduceIte, List.cons_append]
        rw [readQuoted.eq_def]
        simp [hc, ih]

theorem readsAs_quote (name : String) : ReadsAs (quote name).toList [.quoted name] := by
  intro rest hrest
  have hhead : rest.head? ≠ some '"' := fun h => (hrest '"' h).2 rfl
  have hread := readQuoted_doubleQuotes name.toList rest hhead
  have hspace : isSpace '"' = false := by decide
  rw [quote, String.toList_ofList, tokens.eq_def]
  simp only [List.cons_append, List.append_assoc, List.nil_append, hspace, beq_self_eq_true,
    Bool.or_true, Bool.false_eq_true, ↓reduceIte, Char.reduceBEq, Bool.false_and]
  split <;> simp_all

def isBareName : List Char → Bool
  | [] => false
  | c :: rest => startsName c && !isSpace c && rest.all continuesName

theorem readsAs_bareName {name : String} (h : isBareName name.toList = true) :
    ReadsAs name.toList [.word name] := by
  intro rest hrest
  cases hname : name.toList with
  | nil => simp [hname, isBareName] at h
  | cons c word =>
      simp only [hname, isBareName, Bool.and_eq_true, Bool.not_eq_eq_eq_not, Bool.not_true,
        List.all_eq_true] at h
      obtain ⟨⟨hstart, hspace⟩, hword⟩ := h
      have hend : ∀ d, rest.head? = some d → continuesName d = false := fun d hd => (hrest d hd).1
      have htake := takeWhile_append_of_head hword hend
      have hdrop := dropWhile_append_of_head hword hend
      have hminus : (c == '-') = false := by
        rw [beq_eq_false_iff_ne]
        rintro rfl
        revert hstart
        decide
      have hslash : (c == '/') = false := by
        rw [beq_eq_false_iff_ne]
        rintro rfl
        revert hstart
        decide
      have hquote : (c == '\'' || c == '"') = false := by
        rw [Bool.or_eq_false_iff, beq_eq_false_iff_ne, beq_eq_false_iff_ne]
        constructor <;> rintro rfl <;> revert hstart <;> decide
      have hname' : String.ofList (c :: word) = name := by rw [← hname, String.ofList_toList]
      rw [List.cons_append, tokens.eq_def]
      simp only [hspace, hminus, hslash, hquote, hstart, htake, hdrop, hname', Bool.false_and,
        Bool.false_eq_true, ↓reduceIte, List.cons_append, List.nil_append]

theorem ReadsAs.space {text : List Char} {expected : List Token} (h : ReadsAs text expected) :
    ReadsAs (' ' :: text) expected := by
  intro rest hrest
  rw [List.cons_append, tokens.eq_def]
  simpa [isSpace] using h rest hrest

theorem ReadsAs.symbol {c : Char} (hc : c ∈ ['(', ')', ',', '?', '*']) {text : List Char}
    {expected : List Token} (h : ReadsAs text expected) :
    ReadsAs (c :: text) (.symbol c :: expected) := by
  intro rest hrest
  have htail := h rest hrest
  rw [List.cons_append, tokens.eq_def]
  fin_cases hc <;>
    simp [isSpace, startsName, Char.isDigit, Char.isAlpha, Char.isUpper, Char.isLower, htail,
      Function.comp_def]

theorem readsAs_nil : ReadsAs [] [] := by
  intro rest _
  simp

theorem readsAs_symbol {c : Char} (hc : c ∈ ['(', ')', ',', '?', '*']) : ReadsAs [c] [.symbol c] :=
  readsAs_nil.symbol hc

theorem ReadsAs.append {left right : List Char} {expected following : List Token}
    (hleft : ReadsAs left expected) (hright : ReadsAs right following) (hbreaks : Breaks right) :
    ReadsAs (left ++ right) (expected ++ following) := by
  intro rest hrest
  rw [List.append_assoc, hleft _ (hbreaks.append hrest), hright _ hrest, Option.map_map]
  simp [Function.comp_def]

theorem readsAs_intercalate {α : Type} (text : α → List Char) (expected : α → List Token)
    (h : ∀ part, ReadsAs (text part) (expected part)) (parts : List α) :
    ReadsAs (List.intercalate [',', ' '] (parts.map text))
      (List.intercalate [.symbol ','] (parts.map expected)) := by
  induction parts with
  | nil => simpa using readsAs_nil
  | cons part parts ih =>
      cases parts with
      | nil => simpa using h part
      | cons next parts =>
          simp only [List.map_cons, List.intercalate_cons_cons] at ih ⊢
          have hcomma := ih.space.symbol (c := ',') (by decide)
          simpa using (h part).append hcomma (breaks_cons (by decide) (by decide) _)

/-- A bare name with a blank behind it reads as a word before whatever follows. -/
theorem ReadsAs.keyword {name text : String} {expected : List Token}
    (h : ReadsAs text.toList expected) (hname : isBareName name.toList = true) :
    ReadsAs (name ++ (" " ++ text)).toList (.word name :: expected) := by
  have hspace : " ".toList = [' '] := by decide
  have happend := (readsAs_bareName hname).append h.space (breaks_cons (by decide) (by decide) _)
  rwa [String.toList_append, String.toList_append, hspace]

theorem tokens_of_readsAs {text : List Char} {expected : List Token} (h : ReadsAs text expected) :
    tokens text = some expected := by
  have hend := h [] breaks_nil
  rw [List.append_nil, tokens.eq_def []] at hend
  simpa using hend

end LiveTables.Sql
