import LiveTables.Engine.Datum
import LiveTables.Proofs.ExactRounding
import Mathlib

/-!
# Data alone and inside others

A datum that is an answer of its own becomes a value and has the value's text; inside a list, a
record or a map it has the text of a datum. The two texts are the same for all data but two kinds:
fixed-point numbers, which become real numbers, and numbers of single precision, which become the
same numbers at double precision and may need more digits there.
-/

namespace LiveTables.Engine

open LiveTables.Number

/-! ### Texts in a row -/

/-- Texts with a comma behind each of them. -/
def commaBehind (texts : List String) : String := String.join (texts.map (· ++ ", "))

/-- Texts with a comma in front of each of them. -/
def commaBefore (texts : List String) : String := String.join (texts.map (", " ++ ·))

theorem intercalate_eq_commaBefore (text : String) (texts : List String) :
    ", ".intercalate (text :: texts) = text ++ commaBefore texts := by
  induction texts generalizing text with
  | nil => simp [commaBefore]
  | cons next texts ih =>
      rw [String.intercalate_cons_cons, ih]
      simp [commaBefore, String.append_assoc]

theorem intercalate_around (before : List String) (text : String) (after : List String) :
    ", ".intercalate (before ++ text :: after) =
      commaBehind before ++ text ++ commaBefore after := by
  induction before with
  | nil => simp [commaBehind, intercalate_eq_commaBefore]
  | cons first before ih =>
      obtain ⟨next, rest, hrest⟩ := List.exists_cons_of_ne_nil
        (List.append_ne_nil_of_right_ne_nil before (List.cons_ne_nil text after))
      rw [List.cons_append, hrest, String.intercalate_cons_cons, ← hrest, ih]
      simp [commaBehind, String.append_assoc]

/-! ### Slots in other data -/

/-- A slot for one datum in a datum that has parts, with the parts before and behind the slot. -/
inductive Slot where
  | item (before after : List Datum)
  | field (before : List (String × Datum)) (name : String) (after : List (String × Datum))
  | key (before : List (Datum × Datum)) (content : Datum) (after : List (Datum × Datum))
  | content (before : List (Datum × Datum)) (key : Datum) (after : List (Datum × Datum))
  | tag

namespace Slot

def fill : Slot → Datum → Datum
  | item before after, datum => .list (before ++ datum :: after)
  | field before name after, datum => .record (before ++ (name, datum) :: after)
  | .key before other after, datum => .map (before ++ (datum, other) :: after)
  | .content before other after, datum => .map (before ++ (other, datum) :: after)
  | tag, datum => .tagged datum

/-- What is shown in front of the text of what fills a slot. -/
def front : Slot → String
  | item before _ => "[" ++ commaBehind (Datum.renderItems before)
  | field before name _ => "\x7b" ++ commaBehind (Datum.renderFields before) ++ "'" ++ name ++ "': "
  | .key before _ _ => "\x7b" ++ commaBehind (Datum.renderEntries before)
  | .content before other _ =>
    "\x7b" ++ commaBehind (Datum.renderEntries before) ++ other.render ++ "="
  | tag => ""

/-- What is shown behind the text of what fills a slot. -/
def back : Slot → String
  | item _ after => commaBefore (Datum.renderItems after) ++ "]"
  | field _ _ after => commaBefore (Datum.renderFields after) ++ "\x7d"
  | .key _ other after =>
    "=" ++ other.render ++ commaBefore (Datum.renderEntries after) ++ "\x7d"
  | .content _ _ after => commaBefore (Datum.renderEntries after) ++ "\x7d"
  | tag => ""

end Slot

theorem renderItems_append (before after : List Datum) :
    Datum.renderItems (before ++ after) =
      Datum.renderItems before ++ Datum.renderItems after := by
  induction before with
  | nil => rfl
  | cons item before ih => rw [List.cons_append, Datum.renderItems, ih, Datum.renderItems]; rfl

theorem renderFields_append (before after : List (String × Datum)) :
    Datum.renderFields (before ++ after) =
      Datum.renderFields before ++ Datum.renderFields after := by
  induction before with
  | nil => rfl
  | cons field before ih => rw [List.cons_append, Datum.renderFields, ih, Datum.renderFields]; rfl

theorem renderEntries_append (before after : List (Datum × Datum)) :
    Datum.renderEntries (before ++ after) =
      Datum.renderEntries before ++ Datum.renderEntries after := by
  induction before with
  | nil => rfl
  | cons entry before ih => rw [List.cons_append, Datum.renderEntries, ih, Datum.renderEntries]; rfl

theorem Slot.render_fill (slot : Slot) (datum : Datum) :
    (slot.fill datum).render = slot.front ++ datum.render ++ slot.back := by
  cases slot with
  | item before after =>
      simp only [fill, Datum.render, renderItems_append, Datum.renderItems, intercalate_around,
        front, back, String.append_assoc]
  | field before name after =>
      simp only [fill, Datum.render, renderFields_append, Datum.renderFields, intercalate_around,
        front, back, String.append_assoc]
  | key before other after =>
      simp only [fill, Datum.render, renderEntries_append, Datum.renderEntries, intercalate_around,
        front, back, String.append_assoc]
  | content before other after =>
      simp only [fill, Datum.render, renderEntries_append, Datum.renderEntries, intercalate_around,
        front, back, String.append_assoc]
  | tag => simp only [fill, Datum.render, front, back, String.empty_append, String.append_empty]

/-- A datum in slots of others, one inside the other, the outermost slot first. -/
def nested : List Slot → Datum → Datum
  | [], datum => datum
  | slot :: slots, datum => slot.fill (nested slots datum)

def frontOf : List Slot → String
  | [] => ""
  | slot :: slots => slot.front ++ frontOf slots

def backOf : List Slot → String
  | [] => ""
  | slot :: slots => backOf slots ++ slot.back

theorem render_nested (slots : List Slot) (datum : Datum) :
    (nested slots datum).render = frontOf slots ++ datum.render ++ backOf slots := by
  induction slots with
  | nil => simp only [nested, frontOf, backOf, String.empty_append, String.append_empty]
  | cons slot slots ih =>
      rw [nested, slot.render_fill, ih, frontOf, backOf]
      simp only [String.append_assoc]

theorem render_nested_eq_iff {slots : List Slot} {datum : Datum} {text : String} :
    (nested slots datum).render = frontOf slots ++ text ++ backOf slots ↔ datum.render = text := by
  rw [render_nested]
  constructor
  · intro h
    have hlists := congrArg String.toList h
    simp only [String.toList_append] at hlists
    exact String.toList_injective (List.append_cancel_left (List.append_cancel_right hlists))
  · rintro rfl
    rfl

/-! ### Texts of data and of their values -/

/-- A datum without the tags around it. -/
def Datum.untagged : Datum → Datum
  | .tagged inner => inner.untagged
  | datum => datum

theorem untagged_ne_tagged (datum inner : Datum) : datum.untagged ≠ .tagged inner := by
  fun_induction Datum.untagged datum with
  | case1 _ ih => exact ih
  | case2 datum h => exact h inner

theorem render_untagged (datum : Datum) : datum.untagged.render = datum.render := by
  fun_induction Datum.untagged datum with
  | case1 inner ih => rw [ih, Datum.render]
  | case2 => rfl

theorem toValue_untagged (datum : Datum) : datum.untagged.toValue = datum.toValue := by
  fun_induction Datum.untagged datum with
  | case1 inner ih => rw [ih, Datum.toValue]
  | case2 => rfl

theorem render_toValue {datum : Datum} (htagged : ∀ inner, datum ≠ .tagged inner)
    (hfixed : ∀ unscaled scale, datum ≠ .fixed unscaled scale) (hsingle : ∀ x, datum ≠ .single x) :
    datum.toValue.render = datum.render := by
  cases datum with
  | integer n =>
      unfold Datum.toValue
      split_ifs
      · rw [Value.render, Datum.render]
      · rw [Value.render, Datum.render]
  | single x => exact absurd rfl (hsingle x)
  | fixed unscaled scale => exact absurd rfl (hfixed unscaled scale)
  | tagged inner => exact absurd rfl (htagged inner)
  | _ => simp only [Datum.toValue, Value.render, Datum.render]

/-- Infinities, zero and what is no number have the same text in both precisions. -/
theorem render_widen {x : Binary} (h : x.value? = none ∨ x.value? = some 0) :
    binary64.render x.widen = binary32.render x := by
  match x with
  | .nan => rfl
  | .infinite _ => rfl
  | .finite negative significand exponent =>
      have hzero : significand = 0 := by
        have hpower : (2 : ℚ) ^ exponent ≠ 0 := zpow_ne_zero _ two_ne_zero
        simp only [Binary.value?, reduceCtorEq, Option.some.injEq, false_or] at h
        split_ifs at h <;> simpa [hpower] using h
      subst hzero
      cases exponent <;> simp [Binary.widen, Format.round, Format.render]

/-- How the text that a datum has alone agrees with its texts inside other data. -/
structure NestedRules (datum : Datum) : Prop where
  /-- Fixed-point numbers apart, the text alone is that in every slot, unless a number of single
  precision has other digits at double precision. -/
  same : (∀ unscaled scale, datum.untagged ≠ .fixed unscaled scale) → ∀ slots,
    (nested slots datum).render = frontOf slots ++ datum.toValue.render ++ backOf slots ↔
      ∀ x, datum.untagged = .single x → binary64.render x.widen = binary32.render x
  /-- Integers of every size show all their digits. -/
  whole : ∀ n, datum.untagged = .integer n → datum.toValue.render = toString n ∧
    ∀ slots, (nested slots datum).render = frontOf slots ++ toString n ++ backOf slots
  /-- The digits at double precision are those of the same number. Only a finite number other than
  zero can have others there. -/
  single : ∀ x, datum.untagged = .single x → datum.toValue = .real x.widen ∧
    (binary32.Holds x → x.widen.value? = x.value?) ∧
    (x.value? = none ∨ x.value? = some 0 → binary64.render x.widen = binary32.render x)

/-- At every depth a datum has the text that it has alone, fixed-point numbers and those of single
precision apart. -/
theorem nestedRules (datum : Datum) : NestedRules datum := by
  have htagged := untagged_ne_tagged datum
  have hrender := render_untagged datum
  have hvalue := toValue_untagged datum
  constructor
  case same =>
    intro hfixed slots
    rw [render_nested_eq_iff, ← hrender, ← hvalue]
    constructor
    · intro h x hx
      simpa [hx, Datum.render, Datum.toValue, Value.render] using h.symm
    · intro h
      by_cases hsingle : ∃ x, datum.untagged = .single x
      · obtain ⟨x, hx⟩ := hsingle
        simpa [hx, Datum.render, Datum.toValue, Value.render] using (h x hx).symm
      · exact (render_toValue htagged hfixed fun x hx => hsingle ⟨x, hx⟩).symm
  case whole =>
    intro n hn
    have htext : datum.render = toString n := by rw [← hrender, hn, Datum.render]
    refine ⟨?_, fun slots => render_nested_eq_iff.2 htext⟩
    rw [← htext, ← hrender, ← hvalue]
    exact render_toValue htagged (fun _ _ h => nomatch hn.symm.trans h)
      (fun _ h => nomatch hn.symm.trans h)
  case single =>
    intro x hx
    exact ⟨by rw [← hvalue, hx, Datum.toValue], Binary.value?_widen, render_widen⟩

/-- A tenth, as near as single precision comes to it, has one digit in a list and seventeen
alone. -/
theorem render_nested_tenth_ne : binary32.Holds (.finite false 13421773 (-27)) ∧
    (nested [.item [] []] (.single (.finite false 13421773 (-27)))).render ≠
      frontOf [.item [] []] ++ (Datum.single (.finite false 13421773 (-27))).toValue.render ++
        backOf [.item [] []] := by
  constructor
  · exact ⟨by decide, by decide, by decide⟩
  · rw [ne_eq, render_nested_eq_iff]
    decide +kernel

end LiveTables.Engine
