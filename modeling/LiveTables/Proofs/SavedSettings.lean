import LiveTables.Proofs.FileWrites
import LiveTables.Proofs.SettingsText
import LiveTables.Proofs.Utf8Bytes

/-!
# Saving settings and loading them

Settings are saved where a file can be written, unless their poll interval is no integer of 64 bits
with a sign; then nothing is written. What was saved is loaded as it was, if it is valid, and
refused with its own fault if it is not.
-/

namespace LiveTables.Files.Tree

/-- A path that a file can be written to: it leads to one, or to a free place in a directory. -/
def Writable (tree : Tree) (path : String) : Prop :=
  ∃ place, tree.locate true path = .ok place ∧ IsFileOrNone (tree.node? place) ∧
    (tree.node? place = none → tree.node? place.tail = some .directory)

theorem exists_write_iff (tree : Tree) (path : String) (content : List UInt8) (time : Option Int) :
    (∃ after, tree.write path content time = .ok after) ↔ tree.Writable path := by
  unfold write Writable
  cases hlocate : tree.locate true path with
  | error fault => simp [bind, Except.bind]
  | ok place =>
      have hticked : tree.tickClock.node? = tree.node? := rfl
      simp only [bind, Except.bind, hticked, Except.ok.injEq, exists_eq_left']
      cases hnode : tree.node? place with
      | some node => cases node <;> simp [IsFileOrNone]
      | none =>
          cases hparent : tree.node? place.tail with
          | none => simp [IsFileOrNone]
          | some parent => cases parent <;> simp [IsFileOrNone]

/-- A path leads to what was written to it. -/
theorem read_of_write {tree after : Tree} {path : String} {content : List UInt8}
    {time : Option Int} (h : tree.write path content time = .ok after) :
    after.read path = .ok content := by
  have htime : tree.write path content (some (time.getD tree.clock)) = .ok after := h
  obtain ⟨place, id, hlocate, hplace, -, hafter⟩ := write_eq_ok htime
  have hstat : after.stat path = .ok (.file id content (time.getD tree.clock)) :=
    stat_eq_ok_iff.2 ⟨place, ((grown_of_write htime).locate_eq_ok_iff true path).2 hlocate, by
      simp [hafter, hplace]⟩
  simp [read, hstat, bind, Except.bind]

end LiveTables.Files.Tree

namespace LiveTables.Settings

open LiveTables.Files LiveTables.Number LiveTables.Text

/-- What saving settings to a path does, and what loading them from there gives. Where a file can be
written, saving fails only for want of a text, and a save that fails changes no file. -/
structure Preserved (settings : Settings) (tree : Tree) (path : String) : Prop where
  saved_iff : (settings.saveIn tree path).1 = .ok () ↔
    settings.pollInterval ≤ 2 ^ 63 - 1 ∧ tree.Writable path
  unwritten : ∀ failure, (settings.saveIn tree path).1 = .error failure →
    (settings.saveIn tree path).2 = tree ∧
      (tree.Writable path → ∃ fault, settings.toText = .error fault ∧ failure = .settings fault)
  loaded : (settings.saveIn tree path).1 = .ok () → settings.validate = .ok () →
    load (settings.saveIn tree path).2 path = .ok settings
  refused : ∀ fault, (settings.saveIn tree path).1 = .ok () → settings.validate = .error fault →
    load (settings.saveIn tree path).2 path = .error (.settings fault)

section Saving

variable {settings : Settings} {tree : Tree} {path : String}

theorem saveIn_eq_ok_iff {after : Tree} : settings.saveIn tree path = (.ok (), after) ↔
    ∃ text, settings.toText = .ok text ∧ tree.write path (encodeUtf8 text) none = .ok after := by
  unfold saveIn
  cases settings.toText with
  | error fault => simp
  | ok text => cases hwrite : tree.write path (encodeUtf8 text) none <;> simp [hwrite]

theorem saveIn_eq_error {failure : Failure} {after : Tree}
    (h : settings.saveIn tree path = (.error failure, after)) : after = tree ∧
      (tree.Writable path → ∃ fault, settings.toText = .error fault ∧
        failure = .settings fault) := by
  unfold saveIn at h
  cases htext : settings.toText with
  | error fault =>
      simp only [htext, Prod.mk.injEq, Except.error.injEq] at h
      exact ⟨h.2.symm, fun _ => ⟨fault, rfl, h.1.symm⟩⟩
  | ok text =>
      simp only [htext] at h
      cases hwrite : tree.write path (encodeUtf8 text) none with
      | ok written => simp [hwrite] at h
      | error fault =>
          simp only [hwrite, Prod.mk.injEq] at h
          refine ⟨h.2.symm, fun hwritable => ?_⟩
          obtain ⟨written, hwritten⟩ :=
            (tree.exists_write_iff path (encodeUtf8 text) none).2 hwritable
          rw [hwrite] at hwritten
          cases hwritten

theorem isWord_iff (n : Nat) : isWord n = true ↔ n ≤ 2 ^ 63 - 1 := by
  rw [isWord, Bool.and_eq_true, decide_eq_true_iff, decide_eq_true_iff, wordMin, wordMax]
  omega

/-- A file with the text of settings is loaded as they are, or refused for their fault. -/
theorem load_of_saveIn {after : Tree} (h : settings.saveIn tree path = (.ok (), after)) :
    load after path = (settings.validate.map fun _ => settings).mapError .settings := by
  obtain ⟨text, htext, hwrite⟩ := saveIn_eq_ok_iff.1 h
  have hread := Tree.read_of_write hwrite
  simp only [load, hread, decodeUtf8_encodeUtf8, ofText_toText htext, Except.mapError, bind,
    Except.bind]
  cases settings.validate <;> rfl

end Saving

/-- Saving and loading are inverse for all settings and every tree of files. -/
theorem load_save_inverse (settings : Settings) (tree : Tree) (path : String) :
    settings.Preserved tree path := by
  constructor
  case saved_iff =>
    rw [← isWord_iff, ← exists_toText_iff settings]
    constructor
    · intro hsaved
      obtain ⟨text, htext, hwrite⟩ := saveIn_eq_ok_iff.1 (Prod.ext hsaved rfl)
      exact ⟨⟨text, htext⟩, (tree.exists_write_iff path _ none).1 ⟨_, hwrite⟩⟩
    · rintro ⟨⟨text, htext⟩, hwritable⟩
      obtain ⟨after, hwrite⟩ := (tree.exists_write_iff path (encodeUtf8 text) none).2 hwritable
      rw [saveIn_eq_ok_iff.2 ⟨text, htext, hwrite⟩]
  case unwritten =>
    intro failure hfailure
    exact saveIn_eq_error (Prod.ext hfailure rfl)
  case loaded =>
    intro hsaved hvalid
    rw [load_of_saveIn (Prod.ext hsaved rfl), hvalid]
    rfl
  case refused =>
    intro fault hsaved hfault
    rw [load_of_saveIn (Prod.ext hsaved rfl), hfault]
    rfl

end LiveTables.Settings
