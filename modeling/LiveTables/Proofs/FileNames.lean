import LiveTables.Files.Path
import LiveTables.Proofs.TextRuns
import Mathlib.Algebra.Order.Group.Nat
import Mathlib.Data.List.TakeDrop

/-!
# The names of files

The file name of a path is a text that a directory can hold as a name, and every such text is the
file name of the path that leads to it from a directory.
-/

namespace LiveTables.Files.Path

/-- A name that a file can have in a directory. -/
structure IsFileName (name : String) : Prop where
  slash : '/' ∉ name.toList
  nonempty : name ≠ ""
  notCurrent : name ≠ "."
  notParent : name ≠ ".."

theorem eq_of_not_isFileName {name : String} (hslash : '/' ∉ name.toList)
    (h : ¬ IsFileName name) : name = "" ∨ name = "." ∨ name = ".." := by
  by_contra hnone
  rw [not_or, not_or] at hnone
  exact h ⟨hslash, hnone.1, hnone.2.1, hnone.2.2⟩

theorem splitLast_eq (path : String) : splitLast path =
    ((trimEnd path.toList.reverse).takeWhile (· != '/'),
      (trimEnd path.toList.reverse).dropWhile (· != '/')) :=
  List.span_eq_takeWhile_dropWhile _ _

theorem isFileName_of_fileName? {path name : String} (h : fileName? path = some name) :
    IsFileName name := by
  simp only [fileName?, splitLast_eq] at h
  split_ifs at h with hname
  obtain rfl := Option.some.inj h
  simp only [Bool.or_eq_true, List.isEmpty_iff, beq_iff_eq, not_or] at hname
  obtain ⟨⟨hempty, hcurrent⟩, hparent⟩ := hname
  have hne : ∀ other : List Char, (trimEnd path.toList.reverse).takeWhile (· != '/') ≠ other →
      String.ofList ((trimEnd path.toList.reverse).takeWhile (· != '/')).reverse ≠
        String.ofList other.reverse :=
    fun other hother heq => hother (List.reverse_injective (String.ofList_injective heq))
  refine ⟨fun hslash => ?_, hne [] hempty, hne ['.'] hcurrent, hne ['.', '.'] hparent⟩
  rw [String.toList_ofList, List.mem_reverse] at hslash
  exact absurd (List.mem_takeWhile_imp hslash) (by decide)

namespace IsFileName

variable {name : String} (h : IsFileName name)
include h

/-- A path that ends in a name, alone or behind a slash, is a path to a file of that name. -/
theorem fileName?_append {front : String}
    (hfront : front.toList = [] ∨ front.toList.getLast? = some '/') :
    fileName? (front ++ name) = some name := by
  have hne : ∀ other : String, name ≠ other → name.toList.reverse ≠ other.toList.reverse :=
    fun other hother heq => hother (String.toList_injective (List.reverse_injective heq))
  have hempty : name.toList.reverse ≠ [] := hne "" h.nonempty
  have hcurrent : name.toList.reverse ≠ ['.'] := hne "." h.notCurrent
  have hparent : name.toList.reverse ≠ ['.', '.'] := hne ".." h.notParent
  have hslash : ∀ c ∈ name.toList.reverse, c ≠ '/' := fun c hc heq =>
    h.slash (heq ▸ List.mem_reverse.1 hc)
  have htrim : trimEnd (front ++ name).toList.reverse =
      name.toList.reverse ++ front.toList.reverse := by
    rw [String.toList_append, List.reverse_append]
    match hreversed : name.toList.reverse with
    | [] => exact absurd hreversed hempty
    | [c] =>
        have hc := hslash c (by simp [hreversed])
        unfold trimEnd
        split <;> simp_all
    | c :: d :: body =>
        have hc := hslash c (by simp [hreversed])
        have hd := hslash d (by simp [hreversed])
        unfold trimEnd
        split <;> simp_all
  have hname : (name.toList.reverse ++ front.toList.reverse).takeWhile (· != '/') =
      name.toList.reverse := by
    apply Text.takeWhile_append_of_head
    · simpa using hslash
    · rcases hfront with hnil | hlast
      · simp [hnil]
      · simp [List.head?_reverse, hlast]
  rw [fileName?, splitLast_eq, htrim, hname, if_neg (by simp [hcurrent, hparent, h.nonempty]),
    List.reverse_reverse, String.ofList_toList]

theorem fileName?_self : fileName? name = some name := by
  simpa using h.fileName?_append (Or.inl rfl : "".toList = [] ∨ _)

theorem fileName?_join (base : String) : fileName? (join base name) = some name := by
  have habsolute : isAbsolute name = false := by
    rw [isAbsolute, beq_eq_false_iff_ne]
    exact fun hhead => h.slash (List.mem_of_mem_head? hhead)
  rw [join, habsolute, Bool.false_or]
  split_ifs with hempty hend
  · exact h.fileName?_self
  · exact h.fileName?_append (Or.inr (by simpa using hend))
  · exact h.fileName?_append (Or.inr (by simp))

theorem fileName?_withFileName (path : String) :
    fileName? (withFileName path name) = some name := by
  rw [withFileName]
  split
  · exact h.fileName?_join _
  · exact h.fileName?_join _

end IsFileName

end LiveTables.Files.Path
