import LiveTables.Proofs.Deliveries
import LiveTables.Proofs.IndependentTables

/-!
# Tables that are not marked

A table is made, marked or given another file only by a change that is about it. So a run in which
all changes come out of the inbox leaves every other table as it is, or loads it.
-/

namespace LiveTables

open LiveTables.Engine LiveTables.Files LiveTables.Sql LiveTables.Table LiveTables.Text
open LiveTables.Watch

namespace Cache

/-- The table of a key is not made, marked or given another file; it may be loaded if it was
dirty. -/
structure Unmarked (key : String) (cache after : Cache) : Prop where
  unmade : cache.entries.find? key = none → after.entries.find? key = none
  kept : ∀ entry, cache.entries.find? key = some entry →
    ∃ now, after.entries.find? key = some now ∧ now.path = entry.path ∧
      (now = entry ∨ entry.table.dirty = true ∧ now.table.dirty = false)

section Unmarked

variable {key : String} {cache after : Cache}

theorem Unmarked.of_entry (h : after.entries.find? key = cache.entries.find? key) :
    Unmarked key cache after where
  unmade hnone := h.trans hnone
  kept entry hentry := ⟨entry, h.trans hentry, rfl, Or.inl rfl⟩

theorem Unmarked.trans {third : Cache} (h : Unmarked key cache after)
    (h' : Unmarked key after third) : Unmarked key cache third where
  unmade hnone := h'.unmade (h.unmade hnone)
  kept entry hentry := by
    obtain ⟨now, hnow, hpath, hdirty⟩ := h.kept entry hentry
    obtain ⟨later, hlater, hpath', hdirty'⟩ := h'.kept now hnow
    refine ⟨later, hlater, hpath'.trans hpath, ?_⟩
    rcases hdirty' with rfl | ⟨hmarked, hloaded⟩
    · exact hdirty
    · rcases hdirty with rfl | ⟨_, hclean⟩
      · exact Or.inr ⟨hmarked, hloaded⟩
      · rw [hclean] at hmarked
        cases hmarked

theorem unmarked_handleChanges (cache : Cache) (tree : Tree) {changes : List Change}
    (hnone : ∀ change ∈ changes, keyOf? cache.extension change ≠ some key) :
    Unmarked key cache (cache.handleChanges tree changes) := by
  induction changes generalizing cache with
  | nil => exact .of_entry rfl
  | cons change rest ih =>
      obtain ⟨hchange, hrest⟩ := List.forall_mem_cons.1 hnone
      have hextension := (frame_handleChange cache tree change).extension
      exact (Unmarked.of_entry (agreesAt_handleChange_of_ne cache tree hchange).entry).trans
        (ih _ (hextension ▸ hrest))

theorem unmarked_refreshEach (hcache : cache.WellFormed) (tree : Tree) (names : List String) :
    Unmarked key cache (cache.refreshEach tree names).2 := by
  rcases refreshEach_cases hcache tree names key with
    ⟨_, hagrees, _⟩ | ⟨entry, hentry, hdirty, ⟨failure, hfails⟩ | hloads⟩
  · exact .of_entry hagrees.entry
  · exact .of_entry (refreshEach_of_failing hcache hentry hdirty hfails names).1.entry
  · obtain ⟨table, batch, first, spellings, hloading, hnames⟩ := hloads
    obtain ⟨hloaded, _, _⟩ := refreshEach_of_loading hcache hentry hdirty hloading hnames
    constructor
    · intro hnone
      rw [hentry] at hnone
      cases hnone
    · intro found hfound
      obtain rfl := Option.some.inj (hentry.symm.trans hfound)
      exact ⟨_, hloaded, rfl, Or.inr ⟨hdirty, rfl⟩⟩

theorem unmarked_drain (cache : Cache) (tree : Tree)
    (hnone : ∀ change ∈ cache.waiting, keyOf? cache.extension change ≠ some key) :
    Unmarked key cache (cache.drain tree).2 := by
  rw [drain_eq]
  have hemptied : Unmarked key cache cache.emptied := .of_entry rfl
  exact hemptied.trans (unmarked_handleChanges cache.emptied tree hnone)

/-- An operation marks the tables of the changes that it notes, and no others. -/
theorem unmarked_apply (hcache : cache.WellFormed) (tree : Tree) {operation : Operation}
    (hinbox : ∀ change, operation ≠ .change change)
    (hnone : ∀ change ∈ cache.noted operation, keyOf? cache.extension change ≠ some key) :
    Unmarked key cache (cache.apply tree operation) := by
  cases operation with
  | change change => exact absurd rfl (hinbox change)
  | attach => exact .of_entry rfl
  | send changes =>
      refine .of_entry ?_
      simp only [apply, send]
      split
      · split_ifs <;> rfl
      · rfl
  | disconnect => exact .of_entry rfl
  | engine refusals => exact .of_entry rfl
  | refresh names => exact unmarked_refreshEach hcache tree (nameSet names)
  | execute query =>
      have hfresh : Unmarked key cache (cache.freshened tree query) :=
        (unmarked_drain cache tree hnone).trans
          (unmarked_refreshEach (wellFormed_drain hcache tree) tree _)
      rcases execute_cases cache tree query with hafter | hafter
      · rwa [apply, hafter]
      · rw [apply, hafter]
        exact hfresh.trans (.of_entry rfl)
  | drain => exact unmarked_drain cache tree hnone
  | plan query => exact unmarked_drain cache tree hnone
  | tables => exact unmarked_drain cache tree hnone
  | describe name => exact unmarked_drain cache tree hnone

/-- Tables are made and marked for the changes out of the inbox alone, if no others are noted. -/
theorem unmarked_run (hcache : cache.WellFormed) {steps : List (Tree × Operation)}
    (hinbox : ∀ step ∈ steps, ∀ change, step.2 ≠ .change change)
    (hnone : ∀ change ∈ cache.notedIn steps, keyOf? cache.extension change ≠ some key) :
    Unmarked key cache (cache.run steps) := by
  induction steps generalizing cache with
  | nil => exact .of_entry rfl
  | cons step rest ih =>
      obtain ⟨tree, operation⟩ := step
      obtain ⟨hfirst, hrest⟩ := List.forall_mem_cons.1 hinbox
      obtain ⟨hnoted, hlater⟩ := List.forall_mem_append.1 hnone
      rw [← extension_apply hcache tree operation] at hlater
      exact (unmarked_apply hcache tree hfirst hnoted).trans
        (ih (wellFormed_apply hcache tree operation) hrest hlater)

end Unmarked

end Cache

end LiveTables
