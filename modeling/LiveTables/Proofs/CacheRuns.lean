import LiveTables.Proofs.Refreshing

/-!
# Runs of a cache

What a cache does over its life: it takes note of changes, loads tables and runs queries, in any
order and with the files being different each time. Its descriptors stay well formed whatever
happens to the store.
-/

namespace LiveTables

open LiveTables.Engine LiveTables.Files LiveTables.Sql LiveTables.Table LiveTables.Text
open LiveTables.Watch

namespace Cache

/-! ### Taking note of changes -/

/-- The key of the table that a change is about. -/
def keyOf? (extension : String) (change : Change) : Option String :=
  (nameFor? change.fileName extension).map lower

def withMark (cache : Cache) (key : String) (entry : Entry) (path : String) : Cache :=
  { cache with entries := cache.entries.insert key ⟨entry.table.markDirty, path⟩ }

@[simp]
theorem withMark_entries (cache : Cache) (key : String) (entry : Entry) (path : String) :
    (cache.withMark key entry path).entries =
      cache.entries.insert key ⟨entry.table.markDirty, path⟩ := rfl

theorem WellFormed.withMark {cache : Cache} (h : cache.WellFormed) {key : String} {entry : Entry}
    (hentry : cache.entries.find? key = some entry) (path : String) :
    (cache.withMark key entry path).WellFormed := by
  obtain ⟨hkey, hformed⟩ := h key entry hentry
  intro other found hfound
  rcases NameMap.find?_insert_eq_some_iff.1 hfound with ⟨rfl, rfl⟩ | ⟨_, hfound⟩
  · exact ⟨hkey, hformed.markDirty⟩
  · exact h other found hfound

section HandleChange

variable {cache : Cache} {change : Change} {name : String}

theorem keyOf?_of_name (hname : nameFor? change.fileName cache.extension = some name) :
    keyOf? cache.extension change = some (lower name) := by simp [keyOf?, hname]

theorem handleChange_of_unnamed (hname : nameFor? change.fileName cache.extension = none)
    (tree : Tree) : cache.handleChange tree change = (.ok .skipped, cache) := by
  rw [handleChange, hname]

/-- The file is not looked at when its name has a table already. -/
theorem handleChange_of_known {entry : Entry}
    (hname : nameFor? change.fileName cache.extension = some name)
    (hentry : cache.entries.find? (lower name) = some entry) (tree : Tree) :
    cache.handleChange tree change =
      (.ok .markedDirty, cache.withMark (lower name) entry change.path) := by
  simp [handleChange, hname, entry?, hentry, setEntry, withMark]

theorem handleChange_of_unknown (hname : nameFor? change.fileName cache.extension = some name)
    (hentry : cache.entries.find? (lower name) = none) (tree : Tree) :
    cache.handleChange tree change = cache.register tree name change.path := by
  simp [handleChange, hname, entry?, hentry]

end HandleChange

theorem sampled_table {cache : Cache} {tree : Tree} {name path : String} {table : Descriptor}
    (hname : IsIdentifier name) (h : cache.sampled tree name path = .ok (some table)) :
    table.WellFormed ∧ table.name = name ∧ table.dirty = true := by
  obtain ⟨sample, hinfer⟩ := sampled_eq_ok_some h
  refine ⟨Descriptor.wellFormed_of_infer hname hinfer, ?_⟩
  obtain ⟨_, rfl⟩ := Descriptor.infer_eq_ok_iff.1 hinfer
  exact ⟨rfl, rfl⟩

/-- What a change does, by its outcome: it is skipped or fails and leaves a longer trace, or it
marks the table of its name, or it makes that table. -/
theorem handleChange_outcome (cache : Cache) (tree : Tree) (change : Change) :
    (∃ outcome spans, Quiet spans ∧
      (outcome = .ok .skipped ∨ ∃ failure, outcome = .error failure) ∧
      (∀ key, keyOf? cache.extension change = some key → cache.entries.find? key = none) ∧
      cache.handleChange tree change = (outcome, cache.traced spans)) ∨
    (∃ name entry, nameFor? change.fileName cache.extension = some name ∧
      cache.entries.find? (lower name) = some entry ∧
      cache.handleChange tree change =
        (.ok .markedDirty, cache.withMark (lower name) entry change.path)) ∨
    (∃ name table, nameFor? change.fileName cache.extension = some name ∧
      cache.entries.find? (lower name) = none ∧
      cache.sampled tree name change.path = .ok (some table) ∧
      refusal? cache.connection table [] = none ∧
      cache.handleChange tree change =
        (.ok .created, cache.withEntry ⟨table, change.path⟩ [] (recreateSpans table))) := by
  have hquiet : cache = cache.traced [] := by simp [traced]
  cases hname : nameFor? change.fileName cache.extension with
  | none =>
      refine Or.inl ⟨.ok .skipped, [], quiet_nil, Or.inl rfl, by simp [keyOf?, hname], ?_⟩
      rw [← hquiet, handleChange_of_unnamed hname]
  | some name =>
      cases hentry : cache.entries.find? (lower name) with
      | some entry =>
          exact Or.inr (Or.inl ⟨name, entry, rfl, hentry, handleChange_of_known hname hentry tree⟩)
      | none =>
          have hnone : ∀ key, keyOf? cache.extension change = some key →
              cache.entries.find? key = none := by
            intro key hkey
            rw [keyOf?_of_name hname, Option.some.injEq] at hkey
            rw [← hkey, hentry]
          have hunknown := (handleChange_of_unknown hname hentry tree).trans
            (register_eq (isIdentifier_of_nameFor? hname))
          cases hsampled : cache.sampled tree name change.path with
          | error failure =>
              rw [hsampled] at hunknown
              exact Or.inl ⟨_, [], quiet_nil, Or.inr ⟨failure, rfl⟩, hnone, hquiet ▸ hunknown⟩
          | ok sampled =>
              rw [hsampled] at hunknown
              cases sampled with
              | none => exact Or.inl ⟨_, [], quiet_nil, Or.inl rfl, hnone, hquiet ▸ hunknown⟩
              | some table =>
                  dsimp only at hunknown
                  cases hrefusal : refusal? cache.connection table [] with
                  | some refused =>
                      rw [hrefusal] at hunknown
                      exact Or.inl ⟨_, refused.2, quiet_of_refusal? hrefusal, Or.inr ⟨_, rfl⟩,
                        hnone, hunknown⟩
                  | none =>
                      rw [hrefusal] at hunknown
                      exact Or.inr (Or.inr
                        ⟨name, table, rfl, hentry, hsampled, hrefusal, hunknown⟩)

/-- What a change can do: nothing but trace, mark the table of its name, or make that table. -/
theorem handleChange_cases (cache : Cache) (tree : Tree) (change : Change) :
    (∃ spans, Quiet spans ∧ (cache.handleChange tree change).2 = cache.traced spans ∧
      ∀ key, keyOf? cache.extension change = some key → cache.entries.find? key = none) ∨
    (∃ key entry, keyOf? cache.extension change = some key ∧
      cache.entries.find? key = some entry ∧
      (cache.handleChange tree change).2 = cache.withMark key entry change.path) ∨
    (∃ table, keyOf? cache.extension change = some (lower table.name) ∧
      cache.entries.find? (lower table.name) = none ∧ table.WellFormed ∧ table.dirty = true ∧
      refusal? cache.connection table [] = none ∧
      (cache.handleChange tree change).2 =
        cache.withEntry ⟨table, change.path⟩ [] (recreateSpans table)) := by
  rcases handleChange_outcome cache tree change with ⟨_, spans, hquiet, _, hnone, hafter⟩ |
    ⟨name, entry, hname, hentry, hafter⟩ | ⟨name, table, hname, hnew, hsampled, haccepts, hafter⟩
  · exact Or.inl ⟨spans, hquiet, congrArg Prod.snd hafter, hnone⟩
  · exact Or.inr (Or.inl
      ⟨lower name, entry, keyOf?_of_name hname, hentry, congrArg Prod.snd hafter⟩)
  · obtain ⟨htable, rfl, hdirty⟩ := sampled_table (isIdentifier_of_nameFor? hname) hsampled
    exact Or.inr (Or.inr
      ⟨table, keyOf?_of_name hname, hnew, htable, hdirty, haccepts, congrArg Prod.snd hafter⟩)

/-- A change that is not skipped and does not fail leaves a table of its name. -/
theorem exists_entry_of_noted {cache : Cache} {tree : Tree} {change : Change} {key : String}
    (hkey : keyOf? cache.extension change = some key) {outcome : ChangeOutcome}
    (houtcome : (cache.handleChange tree change).1 = .ok outcome) (hne : outcome ≠ .skipped) :
    ∃ entry, (cache.handleChange tree change).2.entries.find? key = some entry := by
  rcases handleChange_outcome cache tree change with ⟨_, _, _, hidle, _, hafter⟩ |
    ⟨name, entry, hname, _, hafter⟩ | ⟨name, table, hname, _, hsampled, _, hafter⟩
  · rw [hafter] at houtcome
    rcases hidle with rfl | ⟨failure, rfl⟩
    · exact absurd (Except.ok.inj houtcome).symm hne
    · cases houtcome
  · rw [keyOf?_of_name hname, Option.some.injEq] at hkey
    rw [hafter, ← hkey]
    exact ⟨_, NameMap.find?_insert_self _ _ _⟩
  · obtain ⟨_, rfl, _⟩ := sampled_table (isIdentifier_of_nameFor? hname) hsampled
    rw [keyOf?_of_name hname, Option.some.injEq] at hkey
    rw [hafter, ← hkey]
    exact ⟨_, NameMap.find?_insert_self _ _ _⟩

theorem wellFormed_handleChange {cache : Cache} (hcache : cache.WellFormed) (tree : Tree)
    (change : Change) : (cache.handleChange tree change).2.WellFormed := by
  rcases handleChange_cases cache tree change with ⟨spans, _, hafter, _⟩ |
    ⟨key, entry, _, hentry, hafter⟩ | ⟨table, _, _, htable, _, _, hafter⟩
  · rw [hafter]
    exact hcache.traced spans
  · rw [hafter]
    exact hcache.withMark hentry change.path
  · rw [hafter]
    exact hcache.withEntry ⟨table, change.path⟩ htable _ _

theorem frame_handleChange (cache : Cache) (tree : Tree) (change : Change) :
    Frame cache (cache.handleChange tree change).2 := by
  rcases handleChange_cases cache tree change with ⟨spans, hquiet, hafter, _⟩ |
    ⟨key, entry, _, hentry, hafter⟩ | ⟨table, _, _, htable, _, _, hafter⟩
  · rw [hafter]
    exact frame_traced cache hquiet
  · rw [hafter]
    exact ⟨rfl, rfl, rfl, rfl, rfl, rfl, [], quiet_nil, by simp [withMark]⟩
  · rw [hafter]
    exact frame_withEntry cache _ _ (quiet_recreateSpans table)

theorem handleChanges_induction {motive : Cache → Prop} (tree : Tree)
    (hstep : ∀ cache change, motive cache → motive (cache.handleChange tree change).2)
    {cache : Cache} (changes : List Change) (h : motive cache) :
    motive (cache.handleChanges tree changes) := by
  induction changes generalizing cache with
  | nil => exact h
  | cons change rest ih => exact ih (hstep cache change h)

/-- A table that is there stays there under its name, and dirty if it was. -/
theorem exists_entry_handleChange {cache : Cache} {key : String} {entry : Entry}
    (hentry : cache.entries.find? key = some entry) (tree : Tree) (change : Change) :
    ∃ after, (cache.handleChange tree change).2.entries.find? key = some after ∧
      after.table.name = entry.table.name ∧
      (entry.table.dirty = true → after.table.dirty = true) := by
  rcases handleChange_cases cache tree change with ⟨spans, _, hafter, _⟩ |
    ⟨marked, found, _, hfound, hafter⟩ | ⟨table, _, hnew, _, _, _, hafter⟩
  · rw [hafter]
    exact ⟨entry, hentry, rfl, id⟩
  · rw [hafter]
    by_cases hkey : key = marked
    · subst hkey
      rw [hentry, Option.some.injEq] at hfound
      exact ⟨_, NameMap.find?_insert_self _ _ _, hfound ▸ rfl, fun _ => rfl⟩
    · exact ⟨entry, (NameMap.find?_insert_of_ne _ hkey _).trans hentry, rfl, id⟩
  · rw [hafter]
    have hkey : key ≠ lower table.name := by
      rintro rfl
      simp [hentry] at hnew
    exact ⟨entry, (NameMap.find?_insert_of_ne _ hkey _).trans hentry, rfl, id⟩

theorem handleChanges_eq_foldl (cache : Cache) (tree : Tree) (changes : List Change) :
    cache.handleChanges tree changes =
      changes.foldl (fun cache change => (cache.handleChange tree change).2) cache := by
  induction changes generalizing cache with
  | nil => rfl
  | cons change rest ih => rw [handleChanges, ih, List.foldl_cons]

def waiting (cache : Cache) : List Change :=
  match cache.inbox with
  | none => []
  | some inbox => inbox.queue

/-- The cache once the changes have been taken out of its inbox. -/
def emptied (cache : Cache) : Cache := { cache with inbox := cache.inbox.bind (·.emptied?) }

theorem drain_eq (cache : Cache) (tree : Tree) :
    (cache.drain tree).2 = cache.emptied.handleChanges tree cache.waiting := by
  unfold drain emptied waiting
  cases hinbox : cache.inbox with
  | none =>
      cases cache
      cases hinbox
      rfl
  | some inbox => rfl

theorem exists_entry_drain {cache : Cache} {key : String} {entry : Entry}
    (hentry : cache.entries.find? key = some entry) (tree : Tree) :
    ∃ after, (cache.drain tree).2.entries.find? key = some after ∧
      after.table.name = entry.table.name ∧
      (entry.table.dirty = true → after.table.dirty = true) := by
  rw [drain_eq]
  refine handleChanges_induction (motive := fun cache => ∃ after,
    cache.entries.find? key = some after ∧ after.table.name = entry.table.name ∧
      (entry.table.dirty = true → after.table.dirty = true)) tree ?_ cache.waiting
    ⟨entry, hentry, rfl, id⟩
  rintro cache change ⟨found, hfound, hname, hdirty⟩
  obtain ⟨after, hafter, hname', hdirty'⟩ := exists_entry_handleChange hfound tree change
  exact ⟨after, hafter, hname'.trans hname, hdirty' ∘ hdirty⟩

theorem wellFormed_drain {cache : Cache} (hcache : cache.WellFormed) (tree : Tree) :
    (cache.drain tree).2.WellFormed := by
  rw [drain_eq]
  have hemptied : cache.emptied.WellFormed := hcache
  exact handleChanges_induction (motive := WellFormed) tree
    (fun cache change h => wellFormed_handleChange h tree change) cache.waiting hemptied

theorem frame_drain (cache : Cache) (tree : Tree) : Frame cache.emptied (cache.drain tree).2 := by
  rw [drain_eq]
  exact handleChanges_induction (motive := Frame cache.emptied) tree
    (fun after change h => h.trans (frame_handleChange after tree change)) cache.waiting
    (Frame.refl cache.emptied)

/-! ### Sets of names -/

theorem mem_insertName {name other : String} {names : List String} :
    other ∈ insertName name names ↔ other = name ∨ other ∈ names := by
  induction names with
  | nil => simp [insertName]
  | cons head rest ih =>
      unfold insertName
      split_ifs with hbefore hafter
      · simp
      · simp [ih, or_left_comm]
      · have heq : name = head := le_antisymm (not_lt.1 hafter) (not_lt.1 hbefore)
        simp [heq]

theorem pairwise_insertName {name : String} {names : List String} (h : names.Pairwise (· < ·)) :
    (insertName name names).Pairwise (· < ·) := by
  induction names with
  | nil => simp [insertName]
  | cons head rest ih =>
      obtain ⟨hhead, hrest⟩ := List.pairwise_cons.1 h
      unfold insertName
      split_ifs with hbefore hafter
      · refine List.pairwise_cons.2 ⟨fun other hother => ?_, h⟩
        rcases List.mem_cons.1 hother with rfl | hother
        · exact hbefore
        · exact hbefore.trans (hhead other hother)
      · refine List.pairwise_cons.2 ⟨fun other hother => ?_, ih hrest⟩
        rcases mem_insertName.1 hother with rfl | hother
        · exact hafter
        · exact hhead other hother
      · exact h

@[simp]
theorem mem_nameSet {name : String} {names : List String} :
    name ∈ nameSet names ↔ name ∈ names := by
  induction names with
  | nil => rfl
  | cons head rest ih =>
      rw [nameSet, List.foldr_cons, mem_insertName, List.mem_cons]
      exact or_congr Iff.rfl ih

theorem pairwise_nameSet (names : List String) : (nameSet names).Pairwise (· < ·) := by
  induction names with
  | nil => exact List.Pairwise.nil
  | cons head rest ih => exact pairwise_insertName ih

theorem nodup_nameSet (names : List String) : (nameSet names).Nodup :=
  (pairwise_nameSet names).imp ne_of_lt

theorem nameSet_of_pairwise {names : List String} (h : names.Pairwise (· < ·)) :
    nameSet names = names := by
  have hperm : (nameSet names).Perm names :=
    (List.perm_ext_iff_of_nodup (nodup_nameSet names) (h.imp ne_of_lt)).2 fun name => mem_nameSet
  exact hperm.eq_of_pairwise (fun first second _ _ hlt hgt => (lt_asymm hlt hgt).elim)
    (pairwise_nameSet names) h

/-! ### Reachable caches -/

inductive Operation where
  | change (change : Change)
  | attach
  | send (changes : List Change)
  | disconnect
  | drain
  | plan (query : String)
  | refresh (names : List String)
  | execute (query : String)
  | tables
  | describe (name : String)
  /-- From now on the engine refuses something else. -/
  | engine (refusals : Refusals)

/-- The cache over an engine that refuses other things. -/
def withRefusals (cache : Cache) (refusals : Refusals) : Cache :=
  { cache with connection := { cache.connection with refusals } }

/-- The cache after an operation, with the files as they are in a tree. -/
def apply (cache : Cache) (tree : Tree) : Operation → Cache
  | .change change => (cache.handleChange tree change).2
  | .attach => cache.attach
  | .send changes => (cache.send changes).2
  | .disconnect => cache.disconnect
  | .drain => (cache.drain tree).2
  | .plan query => (cache.plan tree query).2
  | .refresh names => (cache.ensureFresh tree names).2
  | .execute query => (cache.execute tree query).2
  | .tables => (cache.tables tree).2
  | .describe name => (cache.descriptor? tree name).2
  | .engine refusals => cache.withRefusals refusals

def run (cache : Cache) (steps : List (Tree × Operation)) : Cache :=
  steps.foldl (fun cache step => cache.apply step.1 step.2) cache

/-- The caches that operations lead to, while others run statements of their own on the store. -/
inductive Reachable : Cache → Prop
  | new (connection : Connection) (format : Record.Format) (extension : String)
      (matching : Settings.Matching) : Reachable (.new connection format extension matching)
  | operation {cache : Cache} (tree : Tree) (operation : Operation) :
      Reachable cache → Reachable (cache.apply tree operation)
  | statement {cache : Cache} (text : String) : Reachable cache →
      Reachable { cache with connection := (cache.connection.runBatch text).2 }

/-- The state between the loads and the query. -/
def freshened (cache : Cache) (tree : Tree) (query : String) : Cache :=
  ((cache.drain tree).2.ensureFresh tree ((cache.drain tree).2.referenced query)).2

theorem ensureFresh_referenced (cache : Cache) (tree : Tree) (query : String) :
    cache.ensureFresh tree (cache.referenced query) =
      cache.refreshEach tree (cache.referenced query) := by
  have hordered : (cache.referenced query).Pairwise (· < ·) := pairwise_nameSet _
  rw [ensureFresh, nameSet_of_pairwise hordered]

theorem freshened_eq (cache : Cache) (tree : Tree) (query : String) :
    cache.freshened tree query =
      ((cache.drain tree).2.refreshEach tree ((cache.drain tree).2.referenced query)).2 := by
  rw [freshened, ensureFresh_referenced]

theorem execute_cases (cache : Cache) (tree : Tree) (query : String) :
    (cache.execute tree query).2 = cache.freshened tree query ∨
      (cache.execute tree query).2 =
        { cache.freshened tree query with
          connection :=
            (cache.freshened tree query).connection.record (.statement .query query) } := by
  unfold execute freshened plan
  dsimp only
  cases hreport : (ensureFresh (cache.drain tree).2 tree
      ((cache.drain tree).2.referenced query)) with
  | mk report after =>
      dsimp only
      cases report.failed with
      | cons failed rest => exact Or.inl rfl
      | nil =>
          refine Or.inr ?_
          cases hanswer : after.connection.query query [] with
          | mk outcome connection =>
              have hconnection : connection = after.connection.record (.statement .query query) :=
                (congrArg Prod.snd hanswer).symm
              cases outcome <;> rw [hconnection]

/-! ### Records of a run -/

/-- What is written down of a change that a cache handles and of a table that it loads. -/
structure Recorder (α : Type) where
  ofChange : Cache → Tree → Change → List α
  ofLoad : Cache → Tree → String → List α

namespace Recorder

variable {α : Type} (recorder : Recorder α)

def ofChanges (cache : Cache) (tree : Tree) : List Change → List α
  | [] => []
  | change :: rest => recorder.ofChange cache tree change ++
      ofChanges (cache.handleChange tree change).2 tree rest

def ofLoads (cache : Cache) (tree : Tree) : List String → List α
  | [] => []
  | name :: rest =>
    if cache.isDirty name then
      recorder.ofLoad cache tree name ++ ofLoads (cache.reload tree name).2 tree rest
    else ofLoads cache tree rest

def ofDrain (cache : Cache) (tree : Tree) : List α :=
  recorder.ofChanges cache.emptied tree cache.waiting

/-- What is written down of an operation, in order. -/
def ofOperation (cache : Cache) (tree : Tree) : Operation → List α
  | .change change => recorder.ofChange cache tree change
  | .attach | .send _ | .disconnect | .engine _ => []
  | .drain | .plan _ | .tables | .describe _ => recorder.ofDrain cache tree
  | .refresh names => recorder.ofLoads cache tree (nameSet names)
  | .execute query => recorder.ofDrain cache tree ++
      recorder.ofLoads (cache.drain tree).2 tree ((cache.drain tree).2.referenced query)

def ofRun (cache : Cache) : List (Tree × Operation) → List α
  | [] => []
  | (tree, operation) :: rest =>
    recorder.ofOperation cache tree operation ++ ofRun (cache.apply tree operation) rest

theorem ofRun_append (cache : Cache) (first second : List (Tree × Operation)) :
    recorder.ofRun cache (first ++ second) =
      recorder.ofRun cache first ++ recorder.ofRun (cache.run first) second := by
  induction first generalizing cache with
  | nil => rfl
  | cons step rest ih =>
      rw [List.cons_append, ofRun, ofRun, ih, List.append_assoc]
      rfl

variable {recorder} {motive : Cache → List α → Prop} (tree : Tree) {cache : Cache} {log : List α}

theorem ofChanges_induction
    (hchange : ∀ (cache : Cache) log change, motive cache log →
      motive (cache.handleChange tree change).2 (log ++ recorder.ofChange cache tree change))
    (h : motive cache log) (changes : List Change) :
    motive (cache.handleChanges tree changes) (log ++ recorder.ofChanges cache tree changes) := by
  induction changes generalizing cache log with
  | nil => simpa [handleChanges, ofChanges] using h
  | cons change rest ih =>
      rw [handleChanges, ofChanges, ← List.append_assoc]
      exact ih (hchange cache log change h)

theorem ofLoads_induction
    (hload : ∀ (cache : Cache) log name, cache.isDirty name = true → motive cache log →
      motive (cache.reload tree name).2 (log ++ recorder.ofLoad cache tree name))
    (h : motive cache log) (names : List String) :
    motive (cache.refreshEach tree names).2 (log ++ recorder.ofLoads cache tree names) := by
  induction names generalizing cache log with
  | nil => simpa [refreshEach, ofLoads] using h
  | cons name rest ih =>
      rw [refreshEach_cons_snd, refreshOne, ofLoads]
      split_ifs with hdirty
      · rw [← List.append_assoc]
        exact ih (hload cache log name hdirty h)
      · exact ih h

/-- What does not depend on the inbox, the engine or the trace and is kept by each change and each
load along with what is written down of it, every operation keeps along with its own record. -/
theorem ofOperation_induction
    (hinbox : ∀ (cache : Cache) log inbox, motive cache log →
      motive { cache with inbox := inbox } log)
    (hrefusals : ∀ (cache : Cache) log refusals, motive cache log →
      motive (cache.withRefusals refusals) log)
    (htraced : ∀ (cache : Cache) log spans, motive cache log → motive (cache.traced spans) log)
    (hchange : ∀ (cache : Cache) log change, motive cache log →
      motive (cache.handleChange tree change).2 (log ++ recorder.ofChange cache tree change))
    (hload : ∀ (cache : Cache) log name, cache.isDirty name = true → motive cache log →
      motive (cache.reload tree name).2 (log ++ recorder.ofLoad cache tree name))
    (h : motive cache log) (operation : Operation) :
    motive (cache.apply tree operation) (log ++ recorder.ofOperation cache tree operation) := by
  have hdrained : motive (cache.drain tree).2 (log ++ recorder.ofDrain cache tree) := by
    rw [drain_eq]
    exact ofChanges_induction tree hchange (hinbox cache log _ h) cache.waiting
  have hkept : motive cache (log ++ []) := by rwa [List.append_nil]
  cases operation with
  | change change => exact hchange cache log change h
  | attach => exact hinbox cache _ _ hkept
  | send changes =>
      simp only [apply, send]
      split
      · split_ifs
        · exact hinbox cache _ _ hkept
        · exact hkept
      · exact hkept
  | disconnect => exact hinbox cache _ _ hkept
  | drain => exact hdrained
  | plan query => exact hdrained
  | refresh names => exact ofLoads_induction tree hload h (nameSet names)
  | execute query =>
      have hfresh : motive (cache.freshened tree query)
          (log ++ recorder.ofOperation cache tree (.execute query)) := by
        rw [freshened_eq, ofOperation, ← List.append_assoc]
        exact ofLoads_induction tree hload hdrained _
      rcases execute_cases cache tree query with hafter | hafter
      · rw [apply, hafter]
        exact hfresh
      · rw [apply, hafter, Connection.record_eq_traced]
        exact htraced _ _ _ hfresh
  | tables => exact hdrained
  | describe name => exact hdrained
  | engine refusals => exact hrefusals cache _ refusals hkept

end Recorder

/-- What is kept whatever is written down, every operation keeps. -/
theorem apply_induction {motive : Cache → Prop} (tree : Tree)
    (hinbox : ∀ (cache : Cache) inbox, motive cache → motive { cache with inbox := inbox })
    (hrefusals : ∀ (cache : Cache) refusals, motive cache → motive (cache.withRefusals refusals))
    (htraced : ∀ (cache : Cache) spans, motive cache → motive (cache.traced spans))
    (hchange : ∀ cache change, motive cache → motive (handleChange cache tree change).2)
    (hreload : ∀ cache name, motive cache → motive (reload cache tree name).2) {cache : Cache}
    (h : motive cache) (operation : Operation) : motive (cache.apply tree operation) := by
  let nothing : Recorder Unit := ⟨fun _ _ _ => [], fun _ _ _ => []⟩
  exact @Recorder.ofOperation_induction Unit nothing (fun cache _ => motive cache) tree cache []
    (fun cache _ => hinbox cache) (fun cache _ => hrefusals cache) (fun cache _ => htraced cache)
    (fun cache _ => hchange cache) (fun cache _ name _ => hreload cache name) h operation

theorem wellFormed_apply {cache : Cache} (hcache : cache.WellFormed) (tree : Tree)
    (operation : Operation) : (cache.apply tree operation).WellFormed :=
  apply_induction (motive := WellFormed) tree (fun _ _ h => h) (fun _ _ h => h)
    (fun _ spans h => h.traced spans) (fun _ change h => wellFormed_handleChange h tree change)
    (fun _ name h => wellFormed_reload h tree name) hcache operation

theorem extension_apply {cache : Cache} (hcache : cache.WellFormed) (tree : Tree)
    (operation : Operation) :
    (cache.apply tree operation).extension = cache.extension :=
  (apply_induction (motive := fun now => now.WellFormed ∧ now.extension = cache.extension) tree
    (fun _ _ h => h) (fun _ _ h => h) (fun _ spans h => ⟨h.1.traced spans, h.2⟩)
    (fun now change h => ⟨wellFormed_handleChange h.1 tree change,
      (frame_handleChange now tree change).extension.trans h.2⟩)
    (fun _ name h => ⟨wellFormed_reload h.1 tree name,
      (frame_reload h.1 tree name).extension.trans h.2⟩)
    ⟨hcache, rfl⟩ operation).2

theorem wellFormed_run {cache : Cache} (hcache : cache.WellFormed)
    (steps : List (Tree × Operation)) : (cache.run steps).WellFormed := by
  induction steps generalizing cache with
  | nil => exact hcache
  | cons step rest ih => exact ih (wellFormed_apply hcache step.1 step.2)

theorem run_append (cache : Cache) (first second : List (Tree × Operation)) :
    cache.run (first ++ second) = (cache.run first).run second := List.foldl_append

theorem run_changes (cache : Cache) (tree : Tree) (changes : List Change) :
    cache.run ((changes.map Operation.change).map fun operation => (tree, operation)) =
      cache.handleChanges tree changes := by
  induction changes generalizing cache with
  | nil => rfl
  | cons change rest ih => exact ih (cache.handleChange tree change).2

theorem Reachable.wellFormed {cache : Cache} (h : cache.Reachable) : cache.WellFormed := by
  induction h with
  | new => intro key entry hentry; simp [Cache.new] at hentry
  | operation tree operation _ ih => exact wellFormed_apply ih tree operation
  | statement text _ ih => exact ih

/-! ### A cache of one file -/

/-- A directory with the file `a.c`, which has one row with a whole number. -/
def oneFile : Tree := ⟨NameMap.empty.insert "a.c" (.file 1 [49] 5), 2, 0⟩

def oneFileTable : Descriptor := .ofTypes "a" [.integer]

/-- A cache that has made the table of the file and not loaded it. -/
def ofOneFile (connection : Connection) (matching : Settings.Matching) : Cache :=
  (Cache.new connection ⟨44, false⟩ "c" matching).withEntry ⟨oneFileTable, "/a.c"⟩ []
    (recreateSpans oneFileTable)

/-- An engine that drops tables and makes none: there is a relation of every name beside the one
that a drop removes. -/
def makesNoTable : Refusals where
  statement _ _ statement := match statement with
    | .createTable name _ => some (.nameTaken name)
    | _ => none
  append _ _ _ := none

theorem stat_oneFile : oneFile.stat "/a.c" = .ok (.file 1 [49] 5) := by cbv

theorem sourceRows_oneFile :
    sourceRows ⟨44, false⟩ oneFile "/a.c" = .ok [.ok ⟨1, ["1"]⟩] := by
  have hrows : Record.Format.rows ⟨44, false⟩ [49] = [.ok ⟨1, ["1"]⟩] := by cbv
  simp [sourceRows, Record.Format.openRows, stat_oneFile, hrows, Except.mapError]

theorem firstRow_oneFile : firstRow ⟨44, false⟩ oneFile "/a.c" = .ok (some ⟨1, ["1"]⟩) := by
  simp [firstRow, sourceRows_oneFile]

theorem infer_oneFile : Descriptor.infer "a" ["1"] = .ok oneFileTable := by
  have htype : ColumnType.infer "1" = .integer := by cbv
  simp [Descriptor.infer, oneFileTable, htype]

theorem handleChange_oneFile {cache : Cache} (hformat : cache.format = ⟨44, false⟩)
    (hextension : cache.extension = "c") (hnew : cache.entries.find? "a" = none) :
    cache.handleChange oneFile (changeAt "/a.c" 5) =
      match refusal? cache.connection oneFileTable [] with
      | some (cause, spans) => (.error (.engine cause), cache.traced spans)
      | none => (.ok .created,
          cache.withEntry ⟨oneFileTable, "/a.c"⟩ [] (recreateSpans oneFileTable)) := by
  have hname : nameFor? "a.c" "c" = some "a" := by decide
  have hfileName : (changeAt "/a.c" 5).fileName = "a.c" := by decide
  have hlower : lower "a" = "a" := by decide
  have hsampled : cache.sampled oneFile "a" "/a.c" = .ok (some oneFileTable) := by
    simp [sampled, hformat, firstRow_oneFile, infer_oneFile, Except.map]
  have hregister := @register_eq cache oneFile "a" "/a.c" (isIdentifier_of_nameFor? hname)
  simp only [hsampled] at hregister
  rw [handleChange_of_unknown (hfileName ▸ hextension ▸ hname) (hlower ▸ hnew)]
  exact hregister

theorem loading_oneFile {cache : Cache} (hformat : cache.format = ⟨44, false⟩) :
    cache.loading oneFile ⟨oneFileTable, "/a.c"⟩ =
      match refusal? cache.connection oneFileTable [[.integer 1]] with
      | some (cause, _) => .error (.engine cause)
      | none => .ok (oneFileTable, ⟨"a", ["a_0"], [[.integer 1]]⟩) := by
  have hfresh : cache.freshTable oneFile ⟨oneFileTable, "/a.c"⟩ = .ok oneFileTable := by
    rw [freshTable, hformat, firstRow_oneFile]
    exact infer_oneFile
  have hread : cache.readBatch oneFile "/a.c" oneFileTable =
      .ok ⟨"a", ["a_0"], [[.integer 1]]⟩ := by
    have hbatch : oneFileTable.batch [.ok ⟨1, ["1"]⟩] = .ok ⟨"a", ["a_0"], [[.integer 1]]⟩ := by cbv
    rw [readBatch, hformat, sourceRows_oneFile]
    exact hbatch
  cases hrefusal : refusal? cache.connection oneFileTable [[.integer 1]] <;>
    simp [loading, hfresh, hread, hrefusal]

section OfOneFile

variable (connection : Connection) (matching : Settings.Matching)

theorem apply_oneFile (haccepts : refusal? connection oneFileTable [] = none) :
    (Cache.new connection ⟨44, false⟩ "c" matching).apply oneFile (.change (changeAt "/a.c" 5)) =
      ofOneFile connection matching := by
  have hchange := @handleChange_oneFile (.new connection ⟨44, false⟩ "c" matching) rfl rfl rfl
  have hwilling : refusal? (Cache.new connection ⟨44, false⟩ "c" matching).connection
      oneFileTable [] = none := haccepts
  rw [hwilling] at hchange
  exact congrArg Prod.snd hchange

theorem reachable_ofOneFile (haccepts : refusal? connection oneFileTable [] = none) :
    (ofOneFile connection matching).Reachable :=
  apply_oneFile connection matching haccepts ▸
    .operation oneFile _ (.new connection ⟨44, false⟩ "c" matching)

theorem entry_ofOneFile :
    (ofOneFile connection matching).entries.find? "a" = some ⟨oneFileTable, "/a.c"⟩ :=
  NameMap.find?_insert_self _ _ _

/-- Where the engine drops the table and makes none, the file is not loaded. -/
theorem loading_of_makesNoTable :
    ((ofOneFile .inMemory matching).withRefusals makesNoTable).loading oneFile
      ⟨oneFileTable, "/a.c"⟩ = .error (.engine (.rejected (.nameTaken "a"))) :=
  loading_oneFile rfl

end OfOneFile

end Cache

end LiveTables
