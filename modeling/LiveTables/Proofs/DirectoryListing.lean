import LiveTables.Proofs.TextRuns
import LiveTables.Watch.Poller
import Mathlib.Data.List.Nodup
import Mathlib.Data.Set.Card
import Mathlib.Data.String.Basic

/-!
# What a directory lists

A path is the parts between its slashes, so the names in a directory are told apart by the keys of
the tree, and a listing has each watched file once, in the order of the paths.
-/

namespace LiveTables

namespace Files

namespace Path

theorem intercalate_parts (path : String) : "/".intercalate (parts path) = path := by
  apply String.toList_injective
  rw [String.toList_intercalate, parts, List.map_map]
  have hparts : (path.toList.splitOn '/').map (String.toList ∘ String.ofList) =
      path.toList.splitOn '/' := by simp
  rw [hparts]
  exact List.intercalate_splitOn '/'

theorem slash_notMem_of_mem_parts {path part : String} (h : part ∈ parts path) :
    '/' ∉ part.toList := by
  obtain ⟨text, htext, rfl⟩ := List.mem_map.1 h
  rw [String.toList_ofList]
  exact Text.notMem_of_mem_splitOn htext

/-- A name without a slash goes behind the path of its directory. -/
theorem exists_join_eq_append (base : String) : ∃ before, ∀ name : String, '/' ∉ name.toList →
    join base name = before ++ name := by
  have hrelative : ∀ name : String, '/' ∉ name.toList → isAbsolute name = false := by
    intro name hname
    unfold isAbsolute
    cases htext : name.toList with
    | nil => rfl
    | cons c text =>
        have hne : c ≠ '/' := fun heq => hname (by simp [htext, heq])
        simpa using hne
  by_cases hempty : base.isEmpty = true
  · exact ⟨"", fun name _ => by simp [join, hempty]⟩
  by_cases hslash : base.toList.getLast? = some '/'
  · exact ⟨base, fun name hname => by simp [join, hrelative name hname, hempty, hslash]⟩
  · exact ⟨base ++ "/", fun name hname => by simp [join, hrelative name hname, hempty, hslash]⟩

end Path

theorem append_lt_append {first second : String} (before : String) (h : first < second) :
    before ++ first < before ++ second := by
  rw [String.lt_iff_toList_lt] at h ⊢
  simpa using List.append_left_lt h

namespace Tree

theorem key_of_entryName? {directory : Place} {key name : String}
    (h : entryName? directory key = some name) :
    key = "/".intercalate (directory.reverse ++ [name]) ∧ '/' ∉ name.toList := by
  unfold entryName? at h
  dsimp only at h
  split_ifs at h with hparent
  have hparent : (Path.parts key).dropLast = directory.reverse := by simpa using hparent
  refine ⟨?_, Path.slash_notMem_of_mem_parts (List.mem_of_getLast? h)⟩
  rw [← hparent, List.dropLast_append_getLast? name h, Path.intercalate_parts]

theorem nodup_entryNames (tree : Tree) (directory : Place) :
    (tree.nodes.keys.filterMap (entryName? directory)).Nodup := by
  have hkeys : tree.nodes.keys.Nodup := by
    have hascending : tree.nodes.keys.Pairwise (· < ·) :=
      List.pairwise_map.2 tree.nodes.ascending
    exact hascending.imp ne_of_lt
  refine hkeys.filterMap fun key other name hkey hother => ?_
  rw [(key_of_entryName? hkey).1, (key_of_entryName? hother).1]

theorem list_eq_ok {tree : Tree} {path : String} {names : List String}
    (h : tree.list path = .ok names) :
    names.Pairwise (· < ·) ∧ ∀ name ∈ names, '/' ∉ name.toList := by
  unfold list at h
  cases hplace : tree.locate true path with
  | error fault => simp [hplace, bind, Except.bind] at h
  | ok place =>
      simp only [hplace, bind, Except.bind] at h
      split at h
      · rw [Except.ok.injEq] at h
        subst h
        constructor
        · have hsorted : ((tree.nodes.keys.filterMap (entryName? place)).mergeSort
              (· ≤ ·)).Pairwise (· ≤ ·) := by
            have htrans : ∀ a b c : String, decide (a ≤ b) = true → decide (b ≤ c) = true →
                decide (a ≤ c) = true := by
              simp only [decide_eq_true_eq]
              exact fun a b c => le_trans
            have htotal : ∀ a b : String, (decide (a ≤ b) || decide (b ≤ a)) = true := by
              simp only [Bool.or_eq_true, decide_eq_true_eq]
              exact le_total
            exact (List.pairwise_mergeSort htrans htotal _).imp of_decide_eq_true
          have hnodup := (List.mergeSort_perm (tree.nodes.keys.filterMap (entryName? place))
            (· ≤ ·)).nodup_iff.2 (nodup_entryNames tree place)
          exact (hsorted.and hnodup).imp fun hle => lt_of_le_of_ne hle.1 hle.2
        · intro name hname
          obtain ⟨key, _, hkey⟩ := List.mem_filterMap.1 (List.mem_mergeSort.1 hname)
          exact (key_of_entryName? hkey).2
      · cases h
      · cases h

end Tree

end Files

end LiveTables
