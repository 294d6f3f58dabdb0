import LiveTables.Proofs.QueryStretches
import LiveTables.Proofs.TextRuns

/-!
# Quoted names in a query

A name between double quotes, with each double quote in it written twice, is a row of quotations to
the mask: a double quote of the name closes one of them and opens the next. No other character
counts there, so nothing in a name begins a comment or a literal, and what follows the name is
masked as if it stood alone.
-/

namespace LiveTables.Sql

/-- A name as the mask shows it, with two blanks for each double quote. -/
def blankQuotes (name : List Char) : List Char :=
  name.flatMap fun c => if c = '"' then [' ', ' '] else [c]

/-- The quotations that a quoted name consists of, one for each part between its double quotes. -/
def quotationsOf (name : String) : List Stretch :=
  (name.toList.splitOn '"').map fun part => .quotation part true

theorem doubleQuotes_eq_flatMap (name : List Char) :
    doubleQuotes name = name.flatMap fun c => if c = '"' then ['"', '"'] else [c] := by
  induction name with
  | nil => rfl
  | cons c name ih =>
      rw [doubleQuotes, List.flatMap_cons, ih]
      split_ifs <;> rfl

theorem blankQuotes_of_notMem {name : List Char} (h : '"' ∉ name) : blankQuotes name = name := by
  have hplain : name.flatMap (fun c => if c = '"' then [' ', ' '] else [c]) =
      name.flatMap fun c => [c] := by
    apply List.flatMap_congr
    intro c hc
    rw [if_neg (ne_of_mem_of_not_mem hc h)]
  rw [blankQuotes, hplain, List.flatMap_singleton']

/-- The parts between the marks of a text, each put between two characters, are the text between
these two with both of them for each mark. -/
theorem flatMap_splitOn (mark left right : Char) (text : List Char) :
    (text.splitOn mark).flatMap (fun part => left :: (part ++ [right])) =
      left :: (text.flatMap (fun c => if c = mark then [right, left] else [c]) ++ [right]) := by
  induction text with
  | nil => simp
  | cons c text ih =>
      rw [List.splitOn_cons_eq_if_modifyHead, List.flatMap_cons]
      by_cases hc : c = mark
      · simp [hc, ih]
      · obtain ⟨head, rest, hsplit⟩ := List.exists_cons_of_ne_nil (List.splitOn_ne_nil mark text)
        rw [hsplit, List.flatMap_cons] at ih
        simp only [List.cons_append, List.cons.injEq, true_and] at ih
        simp [hc, hsplit, ih]

section Quotations

variable (name : String)

theorem textOf_quotationsOf : textOf (quotationsOf name) = (quote name).toList := by
  rw [quote, String.toList_ofList, doubleQuotes_eq_flatMap, textOf, quotationsOf, List.flatMap_map]
  exact flatMap_splitOn '"' '"' '"' name.toList

theorem shown_quotationsOf : (quotationsOf name).flatMap Stretch.shown =
    ' ' :: (blankQuotes name.toList ++ [' ']) := by
  rw [quotationsOf, List.flatMap_map]
  exact flatMap_splitOn '"' ' ' ' ' name.toList

/-- A body without a double quote is a quotation in front of any text. -/
theorem fits_quotation {body : List Char} (h : '"' ∉ body) (rest : List Char) :
    (Stretch.quotation body true).Fits rest := by
  intro hinfix
  apply h
  simpa using hinfix.subset List.mem_cons_self

theorem Splits.quotations {bodies : List (List Char)} (hbodies : ∀ body ∈ bodies, '"' ∉ body)
    {behind : List Stretch} (h : Splits behind) :
    Splits (bodies.map (fun body => .quotation body true) ++ behind) := by
  induction bodies with
  | nil => exact h
  | cons body bodies ih =>
      obtain ⟨hbody, hrest⟩ := List.forall_mem_cons.1 hbodies
      exact ⟨fits_quotation hbody _, ih hrest⟩

theorem splitsInto_quote_append {rest : String} {behind : List Stretch}
    (h : SplitsInto rest behind) :
    SplitsInto (quote name ++ rest) (quotationsOf name ++ behind) := by
  constructor
  · apply h.1.quotations
    intro body hbody
    exact Text.notMem_of_mem_splitOn hbody
  · have htext : textOf (quotationsOf name ++ behind) =
        textOf (quotationsOf name) ++ textOf behind := List.flatMap_append
    rw [htext, textOf_quotationsOf, h.2, String.toList_append]

theorem toList_mask_quote_append (rest : String) : (mask (quote name ++ rest)).toList =
    ' ' :: (blankQuotes name.toList ++ ' ' :: (mask rest).toList) := by
  obtain ⟨behind, hsplits, htext⟩ := exists_splits rest.toList
  have hbehind : SplitsInto rest behind := ⟨hsplits, htext⟩
  rw [(splitsInto_quote_append name hbehind).toList_mask, List.flatMap_append, shown_quotationsOf,
    ← hbehind.toList_mask, List.cons_append, List.append_assoc, List.singleton_append]

end Quotations

/-- What the mask makes of a quoted name and of the text behind it. -/
structure Transparent (name rest : String) : Prop where
  shown : mask (quote name ++ rest) =
    " " ++ String.ofList (blankQuotes name.toList) ++ " " ++ mask rest
  /-- The quoted name is quotations and nothing else, and behind the last of them the text is taken
  apart as it is alone. -/
  stretches : ∀ stretches, SplitsInto (quote name ++ rest) stretches ↔
    ∃ behind, SplitsInto rest behind ∧ stretches = quotationsOf name ++ behind

theorem transparent_quote (name rest : String) : Transparent name rest := by
  constructor
  case shown =>
    apply String.toList_injective
    rw [toList_mask_quote_append]
    simp
  case stretches =>
    intro stretches
    constructor
    · intro hstretches
      obtain ⟨behind, hsplits, htext⟩ := exists_splits rest.toList
      have hbehind : SplitsInto rest behind := ⟨hsplits, htext⟩
      have hboth := splitsInto_quote_append name hbehind
      exact ⟨behind, hbehind, hstretches.1.unique hboth.1 (hstretches.2.trans hboth.2.symm)⟩
    · rintro ⟨behind, hbehind, rfl⟩
      exact splitsInto_quote_append name hbehind

/-- Neither the apostrophe and the dashes of a name nor its last double quote count behind it. -/
example : mask (quote "it's--\"" ++ " 'x'/* */y") = " it's--            y" := by cbv

end LiveTables.Sql
