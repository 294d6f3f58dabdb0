import LiveTables.Text.Blank
import Mathlib.Data.List.DropRight
import Mathlib.Data.List.TakeWhile

/-!
# Runs of a class of characters

A run of characters of a class ends where a character follows that is not of the class. What is left
of a text without the runs at its two ends is the one part of it that has only characters of the
class around it and none of them at its own ends.
-/

namespace LiveTables.Text

/-! ### The run that a text starts with -/

section Runs

variable {α : Type} {p : α → Bool} {run rest : List α} (hrun : ∀ c ∈ run, p c = true)
  (hrest : ∀ c, rest.head? = some c → p c = false)
include hrun hrest

theorem takeWhile_append_of_head : (run ++ rest).takeWhile p = run := by
  rw [List.takeWhile_append_of_pos hrun]
  cases rest with
  | nil => simp
  | cons c rest => rw [List.takeWhile_cons_of_neg (by simp [hrest c rfl]), List.append_nil]

theorem dropWhile_append_of_head : (run ++ rest).dropWhile p = rest := by
  rw [List.dropWhile_append_of_pos hrun]
  cases rest with
  | nil => rfl
  | cons c rest => exact List.dropWhile_cons_of_neg (by simp [hrest c rfl])

end Runs

/-! ### The parts between marks -/

theorem notMem_of_mem_splitOn {α : Type} [DecidableEq α] {mark : α} {text part : List α}
    (h : part ∈ text.splitOn mark) : mark ∉ part := by
  induction text generalizing part with
  | nil => simp_all
  | cons c text ih =>
      rw [List.splitOn_cons_eq_if_modifyHead] at h
      obtain ⟨head, rest, hsplit⟩ := List.exists_cons_of_ne_nil (List.splitOn_ne_nil mark text)
      rw [hsplit] at h ih
      split_ifs at h with hmark
      · rcases List.mem_cons.1 h with rfl | hmem
        · exact List.not_mem_nil
        · exact ih hmem
      · rcases List.mem_cons.1 h with rfl | hmem
        · have hne : mark ≠ c := fun heq => hmark (by simp [← heq])
          simpa [hne] using ih List.mem_cons_self
        · exact ih (List.mem_cons_of_mem _ hmem)

/-- The parts of texts that are put together with a mark between them are those of each text. -/
theorem splitOn_intercalate (mark : Char) {texts : List (List Char)} (hne : texts ≠ []) :
    ([mark].intercalate texts).splitOn mark = texts.flatMap (·.splitOn mark) := by
  induction texts with
  | nil => exact absurd rfl hne
  | cons text texts ih =>
      cases texts with
      | nil => simp
      | cons next texts =>
          rw [List.intercalate_cons_cons, List.append_assoc, List.singleton_append,
            List.splitOn_append_cons_self, ih (List.cons_ne_nil _ _), ← List.flatMap_cons]

/-! ### Texts without the characters around them -/

/-- The text without the characters of a class that it starts and ends with. -/
def strip (around : Char → Bool) (text : List Char) : List Char :=
  dropEndWhile around (text.dropWhile around)

/-- A text is another one between characters of a class, and the other one neither starts nor ends
with such a character. -/
structure Encloses (around : Char → Bool) (text inner : List Char) : Prop where
  split : ∃ before after, text = before ++ inner ++ after ∧
    (∀ c ∈ before, around c = true) ∧ ∀ c ∈ after, around c = true
  first : ∀ c, inner.head? = some c → around c = false
  last : ∀ c, inner.getLast? = some c → around c = false

section Strip

variable {around : Char → Bool}

theorem encloses_strip (around : Char → Bool) (text : List Char) :
    Encloses around text (strip around text) := by
  set rest := text.dropWhile around with hrest
  have hstrip : strip around text = rest.rdropWhile around := rfl
  rw [hstrip]
  constructor
  case split =>
    refine ⟨text.takeWhile around, rest.rtakeWhile around, ?_, ?_, ?_⟩
    · rw [List.append_assoc, List.rdropWhile_append_rtakeWhile, List.takeWhile_append_dropWhile]
    · exact fun c hc => List.mem_takeWhile_imp hc
    · exact fun c hc => List.mem_rtakeWhile_imp hc
  case first =>
    intro c hc
    obtain ⟨after, hafter⟩ := List.rdropWhile_prefix around (l := rest)
    have hhead : rest.head? = some c := by
      rw [← hafter, List.head?_append, hc, Option.some_or]
    have hnot := List.head?_dropWhile_not around text
    rw [← hrest, hhead] at hnot
    simpa using hnot
  case last =>
    intro c hc
    have hne : rest.rdropWhile around ≠ [] := by
      intro hnil
      simp [hnil] at hc
    have hnot := List.rdropWhile_last_not around rest hne
    rw [List.getLast?_eq_some_getLast hne, Option.some.injEq] at hc
    simpa [hc] using hnot

theorem strip_eq_nil_iff {text : List Char} :
    strip around text = [] ↔ ∀ c ∈ text, around c = true := by
  constructor
  · intro hnil
    obtain ⟨before, after, htext, hbefore, hafter⟩ := (encloses_strip around text).split
    rw [hnil, List.append_nil] at htext
    intro c hc
    rw [htext, List.mem_append] at hc
    exact hc.elim (hbefore c) (hafter c)
  · intro hall
    have hrest : text.dropWhile around = [] := List.dropWhile_eq_nil_iff.2 hall
    simp [strip, hrest, dropEndWhile]

/-- There is one way to take the characters of a class off a text. -/
theorem Encloses.strip_eq {text inner : List Char} (h : Encloses around text inner) :
    strip around text = inner := by
  obtain ⟨before, after, rfl, hbefore, hafter⟩ := h.split
  by_cases hne : inner = []
  · subst hne
    rw [List.append_nil, strip_eq_nil_iff]
    exact fun c hc => (List.mem_append.1 hc).elim (hbefore c) (hafter c)
  · have hfirst : ∀ c, (inner ++ after).head? = some c → around c = false := by
      intro c hc
      exact h.first c (by rwa [List.head?_append_of_ne_nil _ hne] at hc)
    have hlast : ∀ c, inner.reverse.head? = some c → around c = false := by
      intro c hc
      exact h.last c (by rwa [List.head?_reverse] at hc)
    have hbehind : ∀ c ∈ after.reverse, around c = true :=
      fun c hc => hafter c (List.mem_reverse.1 hc)
    rw [strip, List.append_assoc, dropWhile_append_of_head hbefore hfirst, dropEndWhile,
      List.reverse_append, dropWhile_append_of_head hbehind hlast, List.reverse_reverse]

/-- What is left of a text does not change with a wider class if it has none of that class at its
ends. -/
theorem strip_eq_of_wider {wider : Char → Bool} (hwider : ∀ c, around c = true → wider c = true)
    {text : List Char} (hfirst : ∀ c, (strip around text).head? = some c → wider c = false)
    (hlast : ∀ c, (strip around text).getLast? = some c → wider c = false) :
    strip wider text = strip around text := by
  obtain ⟨before, after, htext, hbefore, hafter⟩ := (encloses_strip around text).split
  exact Encloses.strip_eq ⟨⟨before, after, htext, fun c hc => hwider c (hbefore c hc),
    fun c hc => hwider c (hafter c hc)⟩, hfirst, hlast⟩

end Strip

end LiveTables.Text
