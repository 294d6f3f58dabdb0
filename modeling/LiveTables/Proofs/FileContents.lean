import LiveTables.Proofs.FileWrites

/-!
# What files hold

A file keeps its identity and its place when it is opened or rewritten. Opening adds at most one
empty file; rewriting a file changes what all paths to it lead to, and no other path's file.
-/

namespace LiveTables.Files.Tree

/-- A path leads to the file with an identity, which has this content. -/
def Holds (tree : Tree) (path : String) (id : Nat) (content : List UInt8) : Prop :=
  ∃ modified, tree.stat path = .ok (.file id content modified)

section Holds

variable {tree : Tree} {path : String} {id other : Nat} {content found : List UInt8}

theorem Holds.fileId?_eq (h : tree.Holds path id content) : tree.fileId? path = some id := by
  obtain ⟨modified, hstat⟩ := h
  rw [fileId?, hstat]

theorem Holds.read_eq (h : tree.Holds path id content) : tree.read path = .ok content := by
  obtain ⟨modified, hstat⟩ := h
  rw [read, hstat]
  rfl

theorem holds_of_fileId? (h : tree.fileId? path = some id) :
    ∃ content, tree.Holds path id content := by
  rw [fileId?] at h
  split at h
  · next found content modified hstat =>
      obtain rfl := Option.some.inj h
      exact ⟨content, modified, hstat⟩
  · cases h

theorem Holds.id_eq (h : tree.Holds path id content) (hother : tree.Holds path other found) :
    id = other := by
  have hid := h.fileId?_eq.symm.trans hother.fileId?_eq
  exact Option.some.inj hid

end Holds

/-! ### Rewriting -/

/-- The file with an identity has a new content, and all else is as it was. -/
def Rewritten (tree after : Tree) (id : Nat) (content : List UInt8) : Prop :=
  ∀ place, (∃ old modified time, tree.node? place = some (.file id old modified) ∧
      after.node? place = some (.file id content time)) ∨
    (∀ old modified, tree.node? place ≠ some (.file id old modified)) ∧
      after.node? place = tree.node? place

section Rewritten

variable {tree after : Tree} {path : String} {id other : Nat} {content found : List UInt8}

theorem Rewritten.grown (h : Rewritten tree after id content) : Grown tree after := by
  intro place
  rcases h place with ⟨old, modified, time, hbefore, hafter⟩ | ⟨-, hsame⟩
  · exact Or.inr ⟨Or.inr ⟨id, old, modified, hbefore⟩, Or.inr ⟨id, content, time, hafter⟩⟩
  · exact Or.inl hsame

theorem Rewritten.holds_self (h : Rewritten tree after id content)
    (hfile : tree.Holds path id found) : after.Holds path id content := by
  obtain ⟨modified, hstat⟩ := hfile
  obtain ⟨place, hplace, hnode⟩ := stat_eq_ok_iff.1 hstat
  have hafterPlace := (h.grown.locate_eq_ok_iff true path).2 hplace
  rcases h place with ⟨old, _, time, _, hafter⟩ | ⟨hnone, -⟩
  · exact ⟨time, stat_eq_ok_iff.2 ⟨place, hafterPlace, hafter⟩⟩
  · exact absurd hnode (hnone found modified)

theorem Rewritten.holds_of_ne (h : Rewritten tree after id content) (hne : other ≠ id)
    (hfile : tree.Holds path other found) : after.Holds path other found := by
  obtain ⟨modified, hstat⟩ := hfile
  obtain ⟨place, hplace, hnode⟩ := stat_eq_ok_iff.1 hstat
  have hafterPlace := (h.grown.locate_eq_ok_iff true path).2 hplace
  rcases h place with ⟨old, _, time, hbefore, _⟩ | ⟨-, hsame⟩
  · rw [hnode, Option.some.injEq, Node.file.injEq] at hbefore
    exact absurd hbefore.1 hne
  · exact ⟨modified, stat_eq_ok_iff.2 ⟨place, hafterPlace, hsame.trans hnode⟩⟩

/-- Two ways to rewrite a file differ in nothing else. -/
theorem Rewritten.again {first second : List UInt8} {middle : Tree}
    (hfirst : Rewritten tree middle id first) (hsecond : Rewritten tree after id second) :
    Rewritten middle after id second := by
  intro place
  rcases hfirst place with ⟨old, modified, time, hbefore, hmiddle⟩ | ⟨hnone, hsame⟩
  · rcases hsecond place with ⟨_, _, later, _, hafter⟩ | ⟨hnone, -⟩
    · exact Or.inl ⟨first, time, later, hmiddle, hafter⟩
    · exact absurd hbefore (hnone old modified)
  · rcases hsecond place with ⟨old, modified, _, hbefore, _⟩ | ⟨-, hsame'⟩
    · exact absurd hbefore (hnone old modified)
    · exact Or.inr ⟨by rwa [hsame], hsame'.trans hsame.symm⟩

end Rewritten

/-- Whether a node is the file with an identity. -/
def isFileWith (id : Nat) : Node → Bool
  | .file other _ _ => other == id
  | _ => false

theorem isFileWith_iff {id : Nat} {node : Node} :
    isFileWith id node = true ↔ ∃ old modified, node = .file id old modified := by
  cases node <;> simp [isFileWith]

/-- Put a node in the place of one that is the file with an identity. -/
def replaceFile (id : Nat) (node : Node) (nodes : NameMap Node) (entry : String × Node) :
    NameMap Node :=
  match entry.2 with
  | .file other _ _ => if other == id then nodes.insert entry.1 node else nodes
  | _ => nodes

section ReplaceFile

variable (id : Nat) (node : Node)

theorem find?_replaceFile (nodes : NameMap Node) (entry : String × Node) (name : String) :
    (replaceFile id node nodes entry).find? name =
      if isFileWith id entry.2 && entry.1 == name then some node else nodes.find? name := by
  obtain ⟨key, present⟩ := entry
  cases present with
  | directory => rfl
  | link target => rfl
  | file other content modified =>
      by_cases hother : other = id
      · by_cases hkey : key = name
        · simp [replaceFile, isFileWith, hother, hkey]
        · have hne : name ≠ key := fun h => hkey h.symm
          simp [replaceFile, isFileWith, hother, hkey, NameMap.find?_insert_of_ne _ hne]
      · simp [replaceFile, isFileWith, hother]

theorem find?_foldl_replaceFile (entries : List (String × Node)) (nodes : NameMap Node)
    (name : String) : (entries.foldl (replaceFile id node) nodes).find? name =
      if entries.any (fun entry => isFileWith id entry.2 && entry.1 == name) then some node
      else nodes.find? name := by
  induction entries generalizing nodes with
  | nil => rfl
  | cons entry entries ih =>
      rw [List.foldl_cons, ih, find?_replaceFile, List.any_cons]
      cases hhead : isFileWith id entry.2 && entry.1 == name <;>
        cases hrest : entries.any (fun entry => isFileWith id entry.2 && entry.1 == name) <;> simp

end ReplaceFile

theorem node?_overwrite (tree : Tree) (id : Nat) (content : List UInt8) {place : Place}
    (hplace : place ≠ []) : (tree.overwrite id content).node? place =
      (tree.node? place).map fun node =>
        if isFileWith id node then .file id content tree.clock else node := by
  have hfold : (tree.overwrite id content).nodes =
      tree.nodes.entries.foldl (replaceFile id (.file id content tree.clock)) tree.nodes := rfl
  have hany : tree.nodes.entries.any (fun entry => isFileWith id entry.2 && entry.1 == key place) =
      true ↔ ∃ node, tree.nodes.find? (key place) = some node ∧ isFileWith id node = true := by
    simp [NameMap.find?_eq_some_iff]
  simp only [node?, List.isEmpty_iff, hplace, ↓reduceIte, hfold, find?_foldl_replaceFile, hany]
  cases hfound : tree.nodes.find? (key place) with
  | none => simp
  | some node => by_cases hfile : isFileWith id node = true <;> simp [hfile]

theorem rewritten_overwrite (tree : Tree) (id : Nat) (content : List UInt8) :
    Rewritten tree (tree.overwrite id content) id content := by
  intro place
  by_cases hplace : place = []
  · subst hplace
    exact Or.inr ⟨by simp [node?], rfl⟩
  have hnode := tree.node?_overwrite id content hplace
  cases hbefore : tree.node? place with
  | none => exact Or.inr ⟨by simp, by rw [hnode, hbefore]; rfl⟩
  | some node =>
      by_cases hfile : isFileWith id node = true
      · obtain ⟨old, modified, rfl⟩ := isFileWith_iff.1 hfile
        exact Or.inl ⟨old, modified, tree.clock, rfl, by rw [hnode, hbefore]; simp [hfile]⟩
      · refine Or.inr ⟨fun old modified h => ?_, by rw [hnode, hbefore]; simp [hfile]⟩
        exact hfile (isFileWith_iff.2 ⟨old, modified, Option.some.inj h⟩)

/-! ### Opening -/

/-- Whatever a path led to, it still leads to. -/
def Kept (tree after : Tree) : Prop :=
  ∀ path id content, tree.Holds path id content → after.Holds path id content

theorem kept_of_touchOpen {tree after : Tree} {path : String}
    (h : tree.touchOpen path = .ok after) :
    Kept tree after := by
  cases hplace : tree.locate true path with
  | error fault => simp [touchOpen, hplace, bind, Except.bind] at h
  | ok place =>
      simp only [touchOpen, hplace, bind, Except.bind] at h
      cases hnode : tree.node? place with
      | some node =>
          have hsame : after = tree := by cases node <;> simp_all
          exact fun _ _ _ hfile => hsame ▸ hfile
      | none =>
          have hwrite : tree.write path [] (some tree.clock) = .ok after := by
            rw [hnode] at h
            exact h
          obtain ⟨opened, id, hopened, hne, -, hafter⟩ := write_eq_ok hwrite
          obtain rfl : place = opened := Except.ok.inj (hplace.symm.trans hopened)
          rintro other file content ⟨modified, hstat⟩
          obtain ⟨found, hfound, hfile⟩ := stat_eq_ok_iff.1 hstat
          have hfound' := ((grown_of_write hwrite).locate_eq_ok_iff true other).2 hfound
          have hfree : ¬ (found ≠ [] ∧ key found = key place) := by
            rintro ⟨hnonempty, hkey⟩
            simp [node?, hnonempty, hkey, hne] at hfile hnode
            simp [hnode] at hfile
          exact ⟨modified, stat_eq_ok_iff.2 ⟨found, hfound', by rw [hafter, if_neg hfree, hfile]⟩⟩

/-- A file that is there is opened as it is. -/
theorem Holds.touchOpen_eq {tree : Tree} {path : String} {id : Nat} {content : List UInt8}
    (h : tree.Holds path id content) : tree.touchOpen path = .ok tree := by
  obtain ⟨modified, hstat⟩ := h
  obtain ⟨place, hplace, hnode⟩ := stat_eq_ok_iff.1 hstat
  simp [touchOpen, hplace, hnode, bind, Except.bind]

end LiveTables.Files.Tree
