import LiveTables.Files.Tree
import LiveTables.Proofs.NameMapLookup

/-!
# Writing files

A write puts a file where there was a file or nothing. All ways through the tree lead where they led
before, so what any path leads to is what it was, or it is the file that was written.
-/

namespace LiveTables.Files.Tree

def IsFileOrNone (node : Option Node) : Prop :=
  node = none ∨ ∃ id content modified, node = some (.file id content modified)

/-- At every place stands what stood there, or a file where there was a file or nothing. -/
def Grown (tree after : Tree) : Prop :=
  ∀ place, after.node? place = tree.node? place ∨
    IsFileOrNone (tree.node? place) ∧ IsFileOrNone (after.node? place)

section Grown

variable {tree after : Tree}

theorem Grown.node?_eq (h : Grown tree after) {place : Place}
    (hother : ¬ IsFileOrNone (tree.node? place)) : after.node? place = tree.node? place :=
  (h place).resolve_right fun hfile => hother hfile.1

theorem Grown.isFileOrNone (h : Grown tree after) {place : Place}
    (hfile : IsFileOrNone (tree.node? place)) : IsFileOrNone (after.node? place) := by
  rcases h place with heq | hboth
  · exact heq ▸ hfile
  · exact hboth.2

variable {follow : Bool} {links : Nat} {place : Place} {part : String} {rest : List String}
  {goal : Place}

theorem walk_cons_of_isFileOrNone (hskip : ¬(part == "" || part == ".") = true)
    (hup : ¬(part == "..") = true) (hlong : ¬nameLimit < part.utf8ByteSize)
    (hnode : IsFileOrNone (tree.node? (part :: place))) :
    tree.walk follow links place (part :: rest) = .ok goal ↔
      rest.isEmpty = true ∧ part :: place = goal := by
  rw [walk]
  rcases hnode with hnode | ⟨id, content, modified, hnode⟩
  · by_cases hrest : rest = [] <;> simp [hskip, hup, hlong, hnode, hrest]
  · by_cases hrest : rest = [] <;> simp [hskip, hup, hlong, hnode, hrest]

theorem Grown.walk_cons_of_isFileOrNone (h : Grown tree after)
    (hskip : ¬(part == "" || part == ".") = true) (hup : ¬(part == "..") = true)
    (hlong : ¬nameLimit < part.utf8ByteSize) (hnode : IsFileOrNone (tree.node? (part :: place))) :
    after.walk follow links place (part :: rest) = .ok goal ↔
      tree.walk follow links place (part :: rest) = .ok goal := by
  rw [Tree.walk_cons_of_isFileOrNone hskip hup hlong hnode,
    Tree.walk_cons_of_isFileOrNone hskip hup hlong (h.isFileOrNone hnode)]

theorem Grown.walk_eq_ok_iff (h : Grown tree after) (follow : Bool) (links : Nat) (place : Place)
    (parts : List String) :
    after.walk follow links place parts = .ok goal ↔
      tree.walk follow links place parts = .ok goal := by
  -- a way goes on through directories and links only, and both stay where they are
  induction links, place, parts using Tree.walk.induct tree follow with
  | case1 => simp [walk]
  | case2 links place part rest hskip hdirectory ih =>
      have hafter := (h.node?_eq (by simp [IsFileOrNone, hdirectory])).trans hdirectory
      rw [walk, walk]
      simpa [hskip, hdirectory, hafter] using ih
  | case3 links place part rest hskip hother =>
      have hafter : after.node? place ≠ some .directory := by
        rcases h place with heq | ⟨_, hfile⟩
        · rwa [heq]
        · rintro hdirectory
          simp [hdirectory, IsFileOrNone] at hfile
      rw [walk, walk]
      simp only [hskip, ↓reduceIte]
  | case4 links place part rest hskip hup ih =>
      rw [walk, walk]
      simpa [hskip, hup] using ih
  | case5 links place part rest hskip hup hlong =>
      rw [walk, walk]
      simp [hskip, hup, hlong]
  | case6 links place part rest hskip hup hlong next hnode hrest =>
      exact h.walk_cons_of_isFileOrNone hskip hup hlong (Or.inl hnode)
  | case7 links place part rest hskip hup hlong next hnode hrest =>
      exact h.walk_cons_of_isFileOrNone hskip hup hlong (Or.inl hnode)
  | case8 links place part rest hskip hup hlong next hnode ih =>
      have hafter := (h.node?_eq (by simp [IsFileOrNone, hnode])).trans hnode
      rw [walk, walk]
      simpa [hskip, hup, hlong, next, hnode, hafter] using ih
  | case9 links place part rest hskip hup hlong next id content modified hnode hrest =>
      exact h.walk_cons_of_isFileOrNone hskip hup hlong (Or.inr ⟨id, content, modified, hnode⟩)
  | case10 links place part rest hskip hup hlong next id content modified hnode hrest =>
      exact h.walk_cons_of_isFileOrNone hskip hup hlong (Or.inr ⟨id, content, modified, hnode⟩)
  | case11 links place part rest hskip hup hlong next target hnode hlast =>
      have hafter := (h.node?_eq (by simp [IsFileOrNone, hnode])).trans hnode
      rw [walk, walk]
      simp [hskip, hup, hlong, next, hnode, hafter, hlast]
  | case12 place part rest hskip hup hlong next target hnode hlast =>
      have hafter := (h.node?_eq (by simp [IsFileOrNone, hnode])).trans hnode
      rw [walk, walk]
      simp [hskip, hup, hlong, next, hnode, hafter, hlast]
  | case13 place part rest hskip hup hlong next target hnode hlast links start ih =>
      have hafter := (h.node?_eq (by simp [IsFileOrNone, hnode])).trans hnode
      rw [walk, walk]
      simpa [hskip, hup, hlong, next, hnode, hafter, hlast, start] using ih

theorem Grown.locate_eq_ok_iff (h : Grown tree after) (follow : Bool) (path : String) :
    after.locate follow path = .ok goal ↔ tree.locate follow path = .ok goal := by
  unfold locate
  split_ifs
  · rfl
  · exact h.walk_eq_ok_iff follow linkLimit [] (Path.parts path)

end Grown

/-! ### What paths lead to -/

theorem stat_eq_ok_iff {tree : Tree} {path : String} {node : Node} : tree.stat path = .ok node ↔
    ∃ place, tree.locate true path = .ok place ∧ tree.node? place = some node := by
  unfold stat
  cases tree.locate true path with
  | error fault => simp [bind, Except.bind]
  | ok place => cases hnode : tree.node? place <;> simp [bind, Except.bind, hnode]

theorem modified?_eq_ok_iff {tree : Tree} {path : String} {modified : Int} :
    tree.modified? path = .ok modified ↔
      ∃ id content, tree.stat path = .ok (.file id content modified) := by
  unfold modified?
  cases tree.stat path with
  | error fault => simp [bind, Except.bind]
  | ok node => cases node <;> simp [bind, Except.bind, eq_comm]

theorem node?_setNode (tree : Tree) {place : Place} (hplace : place ≠ []) (node : Node)
    (other : Place) : (tree.setNode place node).node? other =
      if other ≠ [] ∧ key other = key place then some node else tree.node? other := by
  have hnonempty : place.isEmpty = false := by simpa using hplace
  cases other with
  | nil => simp [node?]
  | cons part rest =>
      simp only [setNode, hnonempty, node?, List.isEmpty_cons, Bool.false_eq_true, ↓reduceIte,
        ne_eq, reduceCtorEq, not_false_eq_true, true_and]
      split_ifs with hkey
      · rw [hkey, NameMap.find?_insert_self]
      · rw [NameMap.find?_insert_of_ne _ hkey]

/-- A write puts a file with its content and its time at the place that its path leads to. -/
theorem write_eq_ok {tree after : Tree} {path : String} {content : List UInt8} {time : Int}
    (h : tree.write path content (some time) = .ok after) :
    ∃ place id, tree.locate true path = .ok place ∧ place ≠ [] ∧ IsFileOrNone (tree.node? place) ∧
      ∀ other, after.node? other = if other ≠ [] ∧ key other = key place then
        some (.file id content time) else tree.node? other := by
  unfold write at h
  cases hlocate : tree.locate true path with
  | error fault => simp [hlocate, bind, Except.bind] at h
  | ok place =>
      have hticked : tree.tickClock.node? = tree.node? := rfl
      simp only [hlocate, bind, Except.bind, hticked, Option.getD_some] at h
      have hplace : tree.node? place ≠ some .directory → place ≠ [] := by
        rintro hnode rfl
        exact hnode rfl
      cases hnode : tree.node? place with
      | some node =>
          cases node with
          | directory => simp [hnode] at h
          | link target => simp [hnode] at h
          | file id old modified =>
              simp only [hnode, Except.ok.injEq] at h
              have hne := hplace (by simp [hnode])
              refine ⟨place, id, rfl, hne, Or.inr ⟨id, old, modified, hnode⟩, ?_⟩
              rw [← h]
              exact node?_setNode tree.tickClock hne _
      | none =>
          simp only [hnode] at h
          have hne := hplace (by simp [hnode])
          split at h
          · rw [Except.ok.injEq] at h
            refine ⟨place, tree.nextId, rfl, hne, Or.inl hnode, ?_⟩
            rw [← h]
            exact node?_setNode { tree.tickClock with nextId := tree.nextId + 1 } hne _
          · cases h

section Write

variable {tree after : Tree} {path : String} {content : List UInt8} {time : Int}

theorem grown_of_write (h : tree.write path content (some time) = .ok after) :
    Grown tree after := by
  obtain ⟨place, id, _, hplace, hfile, hafter⟩ := write_eq_ok h
  intro other
  rw [hafter]
  split_ifs with hkey
  · have hsame : tree.node? other = tree.node? place := by
      simp [node?, hkey.1, hplace, hkey.2]
    exact Or.inr ⟨hsame ▸ hfile, Or.inr ⟨id, content, time, rfl⟩⟩
  · exact Or.inl rfl

/-- What a path leads to after a later write: what it led to, or the file that was written. -/
theorem stat_of_later_write (h : tree.write path content (some time) = .ok after)
    (hlater : ∀ earlier, tree.modified? path = .ok earlier → earlier < time) {other : String}
    {node : Node} (hnode : after.stat other = .ok node) : tree.stat other = .ok node ∨
      (∃ id, node = .file id content time) ∧
        ∀ earlier, tree.modified? other = .ok earlier → earlier < time := by
  obtain ⟨place, id, hlocate, hplace, _, hafter⟩ := write_eq_ok h
  obtain ⟨found, hfound, hat⟩ := stat_eq_ok_iff.1 hnode
  rw [(grown_of_write h).locate_eq_ok_iff] at hfound
  rw [hafter] at hat
  split_ifs at hat with hkey
  · have hsame : tree.node? found = tree.node? place := by
      simp [node?, hkey.1, hplace, hkey.2]
    refine Or.inr ⟨⟨id, (Option.some.inj hat).symm⟩, fun earlier hearlier => hlater earlier ?_⟩
    obtain ⟨oldId, old, hold⟩ := modified?_eq_ok_iff.1 hearlier
    obtain ⟨place', hplace', hnode'⟩ := stat_eq_ok_iff.1 hold
    rw [hfound, Except.ok.injEq] at hplace'
    refine modified?_eq_ok_iff.2 ⟨oldId, old, stat_eq_ok_iff.2 ⟨place, hlocate, ?_⟩⟩
    rw [← hsame, hplace', hnode']
  · exact Or.inl (stat_eq_ok_iff.2 ⟨found, hfound, hat⟩)

theorem modified?_of_later_write (h : tree.write path content (some time) = .ok after)
    (hlater : ∀ earlier, tree.modified? path = .ok earlier → earlier < time) {other : String}
    {earlier : Int} (hearlier : tree.modified? other = .ok earlier) :
    ∃ modified, after.modified? other = .ok modified ∧ earlier ≤ modified := by
  obtain ⟨id, old, hstat⟩ := modified?_eq_ok_iff.1 hearlier
  obtain ⟨place, hplace, hnode⟩ := stat_eq_ok_iff.1 hstat
  have hafterPlace := ((grown_of_write h).locate_eq_ok_iff true other).2 hplace
  have hfile : IsFileOrNone (after.node? place) :=
    (grown_of_write h).isFileOrNone (Or.inr ⟨id, old, earlier, hnode⟩)
  rcases hfile with hnone | ⟨newId, new, modified, hnew⟩
  · obtain ⟨written, writtenId, _, hwritten, _, hafter⟩ := write_eq_ok h
    rw [hafter, hnode] at hnone
    split_ifs at hnone
  · have hafterStat := stat_eq_ok_iff.2 ⟨place, hafterPlace, hnew⟩
    refine ⟨modified, modified?_eq_ok_iff.2 ⟨newId, new, hafterStat⟩, ?_⟩
    rcases stat_of_later_write h hlater hafterStat with hsame | ⟨⟨_, hwritten⟩, hall⟩
    · rw [hstat, Except.ok.injEq, Node.file.injEq] at hsame
      exact hsame.2.2.le
    · rw [Node.file.injEq] at hwritten
      exact (hall earlier hearlier).le.trans hwritten.2.2.ge

end Write

end LiveTables.Files.Tree
