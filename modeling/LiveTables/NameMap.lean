/-!
# Maps from names

A finite map with text keys, kept in strictly ascending order of key. The order is part of the type,
so two maps with the same entries are equal and a listing needs no sorting.
-/

namespace LiveTables

universe u

/-- Put `value` at `name`, in place of an entry of that name. -/
def insertEntry {α : Type u} (name : String) (value : α) : List (String × α) → List (String × α)
  | [] => [(name, value)]
  | entry :: rest =>
    if name < entry.1 then (name, value) :: entry :: rest
    else if entry.1 < name then entry :: insertEntry name value rest
    else (name, value) :: rest

theorem mem_of_mem_insertEntry {α : Type u} {name : String} {value : α} {entry : String × α} :
    {entries : List (String × α)} → entry ∈ insertEntry name value entries →
      entry = (name, value) ∨ entry ∈ entries
  | [], h => by simpa [insertEntry] using h
  | head :: rest, h => by
    unfold insertEntry at h
    split at h
    · simpa using h
    · split at h
      · rcases List.mem_cons.1 h with h | h
        · exact .inr (h ▸ List.mem_cons_self)
        · exact (mem_of_mem_insertEntry h).imp_right (List.mem_cons_of_mem _)
      · rcases List.mem_cons.1 h with h | h
        · exact .inl h
        · exact .inr (List.mem_cons_of_mem _ h)

theorem pairwise_insertEntry {α : Type u} {name : String} {value : α} :
    {entries : List (String × α)} → entries.Pairwise (·.1 < ·.1) →
      (insertEntry name value entries).Pairwise (·.1 < ·.1)
  | [], _ => by simp [insertEntry]
  | head :: rest, h => by
    have hrest := List.pairwise_cons.1 h
    unfold insertEntry
    split
    · rename_i hlt
      refine List.pairwise_cons.2 ⟨fun entry hentry => ?_, h⟩
      rcases List.mem_cons.1 hentry with hentry | hentry
      · exact hentry ▸ hlt
      · exact String.lt_trans hlt (hrest.1 entry hentry)
    · split
      · rename_i hgt
        refine List.pairwise_cons.2 ⟨fun entry hentry => ?_, pairwise_insertEntry hrest.2⟩
        rcases mem_of_mem_insertEntry hentry with hentry | hentry
        · exact hentry ▸ hgt
        · exact hrest.1 entry hentry
      · rename_i hle hge
        have heq : head.1 = name := String.le_antisymm (String.not_lt.1 hle) (String.not_lt.1 hge)
        exact List.pairwise_cons.2 ⟨heq ▸ hrest.1, hrest.2⟩

/-- A finite map from names, in ascending order of name. -/
structure NameMap (α : Type u) where
  entries : List (String × α)
  ascending : entries.Pairwise (·.1 < ·.1)

namespace NameMap

variable {α : Type u}

def empty : NameMap α := ⟨[], .nil⟩

instance : Inhabited (NameMap α) := ⟨empty⟩

def find? (map : NameMap α) (name : String) : Option α := map.entries.lookup name

def contains (map : NameMap α) (name : String) : Bool := (map.find? name).isSome

def insert (map : NameMap α) (name : String) (value : α) : NameMap α :=
  ⟨insertEntry name value map.entries, pairwise_insertEntry map.ascending⟩

/-- The map without the names that fail `keep`. -/
def filter (map : NameMap α) (keep : String → α → Bool) : NameMap α :=
  ⟨map.entries.filter fun entry => keep entry.1 entry.2, map.ascending.filter _⟩

def erase (map : NameMap α) (name : String) : NameMap α := map.filter fun key _ => key != name

def keys (map : NameMap α) : List String := map.entries.map (·.1)

def values (map : NameMap α) : List α := map.entries.map (·.2)

end NameMap

end LiveTables
