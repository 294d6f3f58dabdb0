import LiveTables.NameMap
import Mathlib.Data.List.Sort
import Mathlib.Data.String.Basic

/-!
# Looking names up in a map

Each change of a map is told by what is found afterwards: putting in or taking out a name affects
what is found under that name and nothing else. Maps in which the same is found under every name are
equal.
-/

namespace LiveTables

variable {α : Type}

theorem lookup_insertEntry_self (name : String) (value : α) (entries : List (String × α)) :
    (insertEntry name value entries).lookup name = some value := by
  induction entries with
  | nil => simp [insertEntry]
  | cons entry rest ih =>
      obtain ⟨key, present⟩ := entry
      unfold insertEntry
      split_ifs with hbefore hafter
      · simp
      · have hne : (name == key) = false := by simpa using ne_of_gt hafter
        simp [List.lookup_cons, hne, ih]
      · simp

theorem lookup_insertEntry_of_ne {name other : String} (hne : other ≠ name) (value : α)
    (entries : List (String × α)) :
    (insertEntry name value entries).lookup other = entries.lookup other := by
  have hfalse : (other == name) = false := by simpa using hne
  induction entries with
  | nil => simp [insertEntry, List.lookup_cons, hfalse]
  | cons entry rest ih =>
      obtain ⟨key, present⟩ := entry
      unfold insertEntry
      split_ifs with hbefore hafter
      · simp [List.lookup_cons, hfalse]
      · simp [List.lookup_cons, ih]
      · have heq : key = name := le_antisymm (not_lt.1 hbefore) (not_lt.1 hafter)
        simp [List.lookup_cons, hfalse, heq]

theorem lookup_eq_some_iff_mem {entries : List (String × α)} (h : entries.Pairwise (·.1 < ·.1))
    {name : String} {value : α} : entries.lookup name = some value ↔ (name, value) ∈ entries := by
  induction entries with
  | nil => simp
  | cons entry rest ih =>
      obtain ⟨key, present⟩ := entry
      obtain ⟨hhead, hrest⟩ := List.pairwise_cons.1 h
      rw [List.lookup_cons]
      by_cases heq : name = key
      · subst heq
        have hnot : (name, value) ∉ rest := fun hmem => lt_irrefl name (hhead _ hmem)
        simp [hnot, eq_comm]
      · have hfalse : (name == key) = false := by simpa using heq
        simp [hfalse, heq, ih hrest]

/-- The list of a map grows exactly if the name was not in it. -/
theorem length_insertEntry {entries : List (String × α)} (h : entries.Pairwise (·.1 < ·.1))
    (name : String) (value : α) : (insertEntry name value entries).length =
      if (entries.lookup name).isSome then entries.length else entries.length + 1 := by
  induction entries with
  | nil => rfl
  | cons entry rest ih =>
      obtain ⟨key, present⟩ := entry
      obtain ⟨hhead, hrest⟩ := List.pairwise_cons.1 h
      rcases lt_trichotomy name key with hbefore | rfl | hafter
      · have hnone : ((key, present) :: rest).lookup name = none := by
          rw [Option.eq_none_iff_forall_ne_some]
          intro value hfound
          -- a name before the first one is before all of them
          rcases List.mem_cons.1 ((lookup_eq_some_iff_mem h).1 hfound) with heq | hmem
          · exact hbefore.ne (Prod.mk.inj heq).1
          · exact lt_irrefl name (hbefore.trans (hhead _ hmem))
        simp [insertEntry, hbefore, hnone]
      · simp [insertEntry]
      · have hne : (name == key) = false := by simpa using ne_of_gt hafter
        have hnot : ¬ name < key := not_lt_of_gt hafter
        rw [insertEntry, if_neg hnot, if_pos hafter, List.length_cons, ih hrest, List.lookup_cons,
          hne]
        dsimp only
        split_ifs <;> rfl

theorem lookup_filter_ne_self (name : String) (entries : List (String × α)) :
    (entries.filter fun entry => entry.1 != name).lookup name = none := by
  rw [List.lookup_eq_none_iff]
  intro entry hmem
  have hne := (List.mem_filter.1 hmem).2
  simp only [bne_iff_ne, ne_eq] at hne
  simpa using fun h : name = entry.1 => hne h.symm

theorem lookup_filter_ne_of_ne {name other : String} (hne : other ≠ name)
    (entries : List (String × α)) :
    (entries.filter fun entry => entry.1 != name).lookup other = entries.lookup other := by
  induction entries with
  | nil => rfl
  | cons entry rest ih =>
      obtain ⟨key, present⟩ := entry
      by_cases hkey : key = name
      · have hfalse : (other == key) = false := by simpa [hkey] using hne
        simp [List.lookup_cons, hkey, ih, hkey ▸ hfalse]
      · simp [List.lookup_cons, hkey, ih]

namespace NameMap

theorem eq_of_entries {left right : NameMap α} (h : left.entries = right.entries) :
    left = right := by
  cases left
  cases right
  simp_all

@[simp]
theorem find?_empty (name : String) : (empty : NameMap α).find? name = none := rfl

@[simp]
theorem find?_insert_self (map : NameMap α) (name : String) (value : α) :
    (map.insert name value).find? name = some value :=
  lookup_insertEntry_self name value map.entries

theorem find?_insert_of_ne (map : NameMap α) {name other : String} (hne : other ≠ name)
    (value : α) :
    (map.insert name value).find? other = map.find? other :=
  lookup_insertEntry_of_ne hne value map.entries

theorem find?_insert_eq_some_iff {map : NameMap α} {name other : String} {value found : α} :
    (map.insert name value).find? other = some found ↔
      other = name ∧ value = found ∨ other ≠ name ∧ map.find? other = some found := by
  by_cases heq : other = name
  · simp [heq]
  · simp [heq, find?_insert_of_ne]

theorem find?_insert_eq_none_iff {map : NameMap α} {name other : String} {value : α} :
    (map.insert name value).find? other = none ↔ other ≠ name ∧ map.find? other = none := by
  by_cases heq : other = name
  · simp [heq]
  · simp [heq, find?_insert_of_ne]

@[simp]
theorem find?_erase_self (map : NameMap α) (name : String) : (map.erase name).find? name = none :=
  lookup_filter_ne_self name map.entries

theorem find?_erase_of_ne (map : NameMap α) {name other : String} (hne : other ≠ name) :
    (map.erase name).find? other = map.find? other :=
  lookup_filter_ne_of_ne hne map.entries

theorem find?_eq_some_iff {map : NameMap α} {name : String} {value : α} :
    map.find? name = some value ↔ (name, value) ∈ map.entries :=
  lookup_eq_some_iff_mem map.ascending

theorem contains_eq_false_iff {map : NameMap α} {name : String} :
    map.contains name = false ↔ map.find? name = none := by
  simp [contains]

/-- Two maps are equal when the same is found under every name. -/
theorem ext_find? {left right : NameMap α} (h : ∀ name, left.find? name = right.find? name) :
    left = right := by
  apply eq_of_entries
  have hmem : ∀ entry, entry ∈ left.entries ↔ entry ∈ right.entries := by
    rintro ⟨name, value⟩
    rw [← find?_eq_some_iff, ← find?_eq_some_iff, h]
  have hnodup : ∀ map : NameMap α, map.entries.Nodup := fun map =>
    map.ascending.imp fun hlt heq => (lt_irrefl _ (heq ▸ hlt)).elim
  refine List.Perm.eq_of_pairwise ?_ left.ascending right.ascending
    ((List.perm_ext_iff_of_nodup (hnodup left) (hnodup right)).2 hmem)
  intro first second _ _ hlt hgt
  exact (lt_asymm hlt hgt).elim

theorem insert_erase (map : NameMap α) (name : String) (value : α) :
    (map.erase name).insert name value = map.insert name value := by
  apply ext_find?
  intro other
  by_cases heq : other = name
  · rw [heq, find?_insert_self, find?_insert_self]
  · rw [find?_insert_of_ne _ heq, find?_insert_of_ne _ heq, find?_erase_of_ne _ heq]

theorem insert_insert (map : NameMap α) (name : String) (first second : α) :
    (map.insert name first).insert name second = map.insert name second := by
  apply ext_find?
  intro other
  by_cases heq : other = name
  · rw [heq, find?_insert_self, find?_insert_self]
  · rw [find?_insert_of_ne _ heq, find?_insert_of_ne _ heq, find?_insert_of_ne _ heq]

theorem insert_eq_self {map : NameMap α} {name : String} {value : α}
    (h : map.find? name = some value) : map.insert name value = map := by
  apply ext_find?
  intro other
  by_cases heq : other = name
  · rw [heq, find?_insert_self, h]
  · rw [find?_insert_of_ne _ heq]

theorem length_values_insert_of_none {map : NameMap α} {name : String} (h : map.find? name = none)
    (value : α) : (map.insert name value).values.length = map.values.length + 1 := by
  have hnone : (map.entries.lookup name).isSome = false := by
    rw [find?] at h
    simp [h]
  simp [values, insert, length_insertEntry map.ascending, hnone]

theorem length_values_insert_of_some {map : NameMap α} {name : String} {present : α}
    (h : map.find? name = some present) (value : α) :
    (map.insert name value).values.length = map.values.length := by
  have hsome : (map.entries.lookup name).isSome = true := by
    rw [find?] at h
    simp [h]
  simp [values, insert, length_insertEntry map.ascending, hsome]

theorem mem_values_iff {map : NameMap α} {value : α} :
    value ∈ map.values ↔ ∃ name, map.find? name = some value := by
  simp only [values, List.mem_map, Prod.exists, exists_eq_right, find?_eq_some_iff]

end NameMap

end LiveTables
