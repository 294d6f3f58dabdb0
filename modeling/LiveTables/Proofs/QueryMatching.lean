import LiveTables.Proofs.QueryContract

/-!
# Two ways of matching

A table whose name is a word of a query is also found when names are looked for anywhere in the
text. The mask writes every character of a query where it stands or a blank in its place, and blanks
part words, so a word of the masked text stands in the query as it is.
-/

namespace LiveTables

open LiveTables.Files LiveTables.Sql LiveTables.Table LiveTables.Text LiveTables.Watch

namespace Sql

/-! ### Words of a text with blanked parts -/

/-- The same text with some of its characters blanked. -/
def Blanked (masked text : List Char) : Prop :=
  List.Forall₂ (fun shown c => shown = c ∨ shown = ' ') masked text

theorem Blanked.shown {masked text : List Char} (h : Blanked masked text) (c : Char) :
    Blanked (c :: masked) (c :: text) :=
  List.Forall₂.cons (Or.inl rfl) h

theorem Blanked.blank {masked text : List Char} (h : Blanked masked text) (c : Char) :
    Blanked (' ' :: masked) (c :: text) :=
  List.Forall₂.cons (Or.inr rfl) h

theorem blanked_maskFrom (region : Region) (text : List Char) :
    Blanked (maskFrom region text) text := by
  fun_induction maskFrom region text with
  | case1 => exact List.Forall₂.nil
  | case2 rest ih => exact (ih.blank '-').blank '-'
  | case3 rest ih => exact (ih.blank '*').blank '/'
  | case4 rest ih => exact ih.blank '\''
  | case5 rest ih => exact ih.blank '"'
  | case6 c rest _ _ _ _ ih => exact ih.shown c
  | case7 rest ih => exact ih.blank '\n'
  | case8 c rest _ ih => exact ih.blank c
  | case9 rest ih => exact (ih.blank '/').blank '*'
  | case10 c rest _ ih => exact ih.blank c
  | case11 rest ih => exact (ih.blank '\'').blank '\''
  | case12 rest _ ih => exact ih.blank '\''
  | case13 c rest _ _ ih => exact ih.blank c
  | case14 rest ih => exact ih.blank '"'
  | case15 c rest _ ih => exact ih.shown c

/-- A word of a text with blanked parts stands in the text, together with the run `current` that the
text goes on with. -/
theorem infix_of_mem_wordsFrom {masked text word : List Char} (h : Blanked masked text)
    (current : List Char) (hword : word ∈ wordsFrom current masked) :
    word <:+: current.reverse ++ text := by
  induction h generalizing current with
  | nil =>
      rw [wordsFrom] at hword
      split_ifs at hword
      · cases hword
      · rw [List.mem_singleton.1 hword, List.append_nil]
  | @cons shown c masked text hshown _ ih =>
      rw [wordsFrom] at hword
      -- a blank is no word character, so a run goes on with characters of the text itself
      by_cases hrun : isWordChar shown = true
      · obtain rfl : shown = c := hshown.resolve_right fun hblank => by
          rw [hblank] at hrun
          exact absurd hrun (by decide)
        rw [if_pos hrun] at hword
        simpa using ih (shown :: current) hword
      · have hrest : word ∈ wordsFrom [] masked → word <:+: current.reverse ++ c :: text := by
          intro hmem
          have hstands := ih [] hmem
          rw [List.reverse_nil, List.nil_append] at hstands
          exact (List.infix_cons hstands).trans (List.suffix_append _ _).isInfix
        rw [if_neg hrun] at hword
        split_ifs at hword
        · exact hrest hword
        · rcases List.mem_cons.1 hword with rfl | hmem
          · exact (List.prefix_append _ _).isInfix
          · exact hrest hmem

theorem infix_of_mem_identifierWords {query word : String} (h : word ∈ identifierWords query) :
    word.toList <:+: (lower query).toList := by
  rw [identifierWords, Cache.mem_nameSet, mask, String.toList_ofList] at h
  obtain ⟨run, hrun, rfl⟩ := List.mem_map.1 h
  have hstands := infix_of_mem_wordsFrom (blanked_maskFrom .code query.toList) [] hrun
  rw [toList_lower, toList_lower, String.toList_ofList]
  exact hstands.map Char.toLower

end Sql

namespace Cache

theorem Matches.substring {query name : String} (h : Matches .identifiers query name) :
    Matches .substring query name :=
  infix_of_mem_identifierWords h

/-! ### Plans with either way of matching -/

/-- The same tables, with queries matched in another way. -/
def withMatching (cache : Cache) (matching : Settings.Matching) : Cache := { cache with matching }

section WithMatching

variable (cache : Cache) (matching : Settings.Matching) (tree : Tree)

/-- What a change does to the tables does not depend on how queries are matched. -/
theorem handleChange_withMatching (change : Change) :
    ((cache.withMatching matching).handleChange tree change).2 =
      (cache.handleChange tree change).2.withMatching matching := by
  simp only [handleChange, register, withMatching, entry?]
  cases nameFor? change.fileName cache.extension with
  | none => rfl
  | some name =>
      dsimp only
      cases cache.entries.find? (lower name) with
      | some entry => rfl
      | none =>
          dsimp only
          cases firstRow cache.format tree change.path with
          | error failure => rfl
          | ok first =>
              cases first with
              | none => rfl
              | some row =>
                  dsimp only
                  cases Descriptor.infer name row.fields with
                  | error failure => rfl
                  | ok table =>
                      dsimp only
                      rcases cache.connection.transaction (recreate table) with ⟨_ | _, _⟩
                      · rfl
                      · rfl

theorem handleChanges_withMatching (changes : List Change) :
    (cache.withMatching matching).handleChanges tree changes =
      (cache.handleChanges tree changes).withMatching matching := by
  induction changes generalizing cache with
  | nil => rfl
  | cons change rest ih => rw [handleChanges, handleChange_withMatching, ih, handleChanges]

theorem drain_withMatching : ((cache.withMatching matching).drain tree).2 =
    (cache.drain tree).2.withMatching matching := by
  rw [drain_eq, drain_eq]
  exact handleChanges_withMatching cache.emptied matching tree cache.waiting

end WithMatching

/-- Every table that is to be loaded before a query when names are looked for among its words is to
be loaded when they are looked for anywhere in it. -/
theorem plan_identifiers_subset (cache : Cache) (tree : Tree) (query : String) :
    ((cache.withMatching .identifiers).plan tree query).1 ⊆
        ((cache.withMatching .substring).plan tree query).1 ∧
      ∀ word ∈ identifierWords query, word.toList <:+: (lower query).toList := by
  refine ⟨fun name hname => ?_, fun word hword => infix_of_mem_identifierWords hword⟩
  simp only [plan, drain_withMatching] at hname ⊢
  obtain ⟨key, entry, hentry, rfl, hdirty, hmatches⟩ := mem_referenced_iff.1 hname
  exact mem_referenced_iff.2 ⟨key, entry, hentry, rfl, hdirty, Matches.substring hmatches⟩

theorem plan_identifiers_subset_oneFile :
    "a" ∈ ((ofOneFile .inMemory .identifiers).plan oneFile "(A)").1 ∧
      "a" ∈ ((ofOneFile .inMemory .substring).plan oneFile "(A)").1 := by
  have hwords : identifierWords "(A)" = [lower "a"] := by cbv
  have hmatches : Matches .identifiers "(A)" "a" := by
    change lower "a" ∈ identifierWords "(A)"
    rw [hwords]
    exact List.mem_cons_self
  have hplanned : "a" ∈ ((ofOneFile .inMemory .identifiers).plan oneFile "(A)").1 :=
    mem_referenced_iff.2 ⟨"a", _, entry_ofOneFile .inMemory .identifiers, rfl, rfl, hmatches⟩
  have hsubset := (plan_identifiers_subset (ofOneFile .inMemory .identifiers) oneFile "(A)").1
  exact ⟨hplanned, hsubset hplanned⟩

end Cache

end LiveTables
