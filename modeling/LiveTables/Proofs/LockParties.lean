import LiveTables.Engine.Disk
import LiveTables.Proofs.FileContents
import LiveTables.Proofs.HolderRecord
import LiveTables.Proofs.LockPaths

/-!
# Parties that compete for locks

Any number of parties take and drop the locks of stores, each in steps that may be interleaved with
those of the others: a party opens the lock file, is given the system's lock or refused, empties the
file, writes its record and later empties the file again before it closes it. Taking a lock may also
fail on the way. The system gives the lock of a file to one open handle at a time. So a lock that
was taken is the only one on its path, its file names its holder and nobody else, and once it is
dropped it is free.
-/

namespace LiveTables.Lock

open LiveTables.Files LiveTables.Text

/-- What a holder leaves in the lock file. -/
def Holder.record (holder : Holder) : List UInt8 := encodeUtf8 holder.toJson

/-- How far a party has come with a lock file that it has open. -/
inductive Phase where
  | opened
  /-- Another party has the lock, and its record is not read yet. -/
  | refused
  /-- The party has the system's lock, and the file what it held before. -/
  | locked (holder : Holder)
  /-- The file was emptied, and so much of the record was written. -/
  | writing (holder : Holder) (written : List UInt8)
  /-- The lock is taken. -/
  | holding (holder : Holder)
  /-- The lock is being dropped: the record is gone, and the file is not closed yet. -/
  | cleared

namespace Phase

/-- Whether the system's lock is the party's. -/
def hasLock : Phase → Bool
  | opened => false
  | refused => false
  | _ => true

/-- Whether the lock is being taken, which may still fail. -/
def isTaking : Phase → Bool
  | locked _ => true
  | writing .. => true
  | _ => false

/-- What the lock file holds. -/
def Shows : Phase → List UInt8 → Prop
  | opened, _ => True
  | refused, _ => True
  | locked holder, _ => holder.process < 2 ^ 32
  | writing holder written, content => holder.process < 2 ^ 32 ∧ content = written
  | holding holder, content => holder.process < 2 ^ 32 ∧ content = holder.record
  | cleared, content => content = []

theorem hasLock_of_isTaking {phase : Phase} (h : phase.isTaking = true) : phase.hasLock = true := by
  cases phase <;> first | rfl | cases h

theorem shows_of_not_hasLock {phase : Phase} (h : phase.hasLock = false) (content : List UInt8) :
    phase.Shows content := by
  cases phase <;> trivial

end Phase

/-- A lock file that a party has open for a store. -/
structure Handle where
  store : String
  file : Nat
  phase : Phase

namespace Handle

/-- The lock that the party has once it is taken. -/
def lock (handle : Handle) : StoreLock := ⟨lockPath handle.store, handle.file⟩

/-- The lock file is where its path leads, and holds what it does in the party's phase. -/
def Shown (tree : Tree) (handle : Handle) : Prop :=
  ∃ content, tree.Holds (lockPath handle.store) handle.file content ∧ handle.phase.Shows content

section Shown

variable {tree after : Tree} {handle : Handle} {content : List UInt8}

theorem Shown.kept (h : handle.Shown tree) (hkept : Tree.Kept tree after) : handle.Shown after := by
  obtain ⟨content, hholds, hshows⟩ := h
  exact ⟨content, hkept _ _ _ hholds, hshows⟩

/-- Rewriting a lock file matters to none but the party that has its lock. -/
theorem Shown.rewritten {id : Nat} (h : handle.Shown tree)
    (hrewritten : Tree.Rewritten tree after id content)
    (hother : handle.phase.hasLock = true → handle.file ≠ id) : handle.Shown after := by
  obtain ⟨found, hholds, hshows⟩ := h
  by_cases hfile : handle.file = id
  · have hphase : handle.phase.hasLock = false := by
      by_contra hlock
      exact hother (by simpa using hlock) hfile
    exact ⟨content, hfile ▸ hrewritten.holds_self (hfile ▸ hholds),
      Phase.shows_of_not_hasLock hphase content⟩
  · exact ⟨found, hrewritten.holds_of_ne hfile hholds, hshows⟩

end Shown

end Handle

/-- A machine and the lock files that parties on it have open. -/
structure System (Party : Type) where
  host : Host
  handles : Party → Option Handle

namespace System

variable {Party : Type}

/-- A party has the system's lock of a file. -/
def Locks (s : System Party) (party : Party) (file : Nat) : Prop :=
  ∃ handle, s.handles party = some handle ∧ handle.phase.hasLock = true ∧ handle.file = file

/-- What every step keeps. -/
structure Sound (s : System Party) : Prop where
  shown : ∀ party handle, s.handles party = some handle → handle.Shown s.host.tree
  locked_iff : ∀ file, file ∈ s.host.locked ↔ ∃ party, s.Locks party file
  exclusive : ∀ one other file, s.Locks one file → s.Locks other file → one = other

theorem locks_iff_of_handle {s : System Party} {party : Party} {own : Handle}
    (hown : s.handles party = some own) (file : Nat) :
    s.Locks party file ↔ own.phase.hasLock = true ∧ own.file = file := by
  simp [Locks, hown]

theorem not_locks_of_none {s : System Party} {party : Party} (hnone : s.handles party = none)
    (file : Nat) : ¬ s.Locks party file := by
  simp [Locks, hnone]

/-- A system in which nobody has a lock file open, whatever the files hold. -/
def Idle (s : System Party) : Prop := s.host.locked = [] ∧ ∀ party, s.handles party = none

theorem Idle.sound {s : System Party} (h : s.Idle) : s.Sound := by
  obtain ⟨hlocked, haway⟩ := h
  refine ⟨fun party handle hhandle => ?_, fun file => ?_, fun one other file hone => ?_⟩
  · simp [haway] at hhandle
  · simp [hlocked, not_locks_of_none (haway _)]
  · exact absurd hone (not_locks_of_none (haway one) file)

variable [DecidableEq Party]

/-- The system after a party's step, which changes the machine and the party's own handle. -/
def put (s : System Party) (party : Party) (host : Host) (handle : Option Handle) : System Party :=
  ⟨host, Function.update s.handles party handle⟩

/-- The steps of parties. Where a file is rewritten, the time of that is left open. A lock that is
taken can be dropped: emptying its file does not fail. -/
inductive Step : System Party → System Party → Prop
  | opens {s : System Party} {party store tree file} (haway : s.handles party = none)
      (hopen : s.host.tree.touchOpen (lockPath store) = .ok tree)
      (hfile : tree.fileId? (lockPath store) = some file) :
      Step s (s.put party { s.host with tree } (some ⟨store, file, .opened⟩))
  | locks {s : System Party} {party store file holder}
      (hopened : s.handles party = some ⟨store, file, .opened⟩) (hfree : file ∉ s.host.locked)
      (hprocess : holder.process < 2 ^ 32) :
      Step s (s.put party { s.host with locked := file :: s.host.locked }
        (some ⟨store, file, .locked holder⟩))
  | refuses {s : System Party} {party store file}
      (hopened : s.handles party = some ⟨store, file, .opened⟩) (hheld : file ∈ s.host.locked) :
      Step s (s.put party s.host (some ⟨store, file, .refused⟩))
  | answers {s : System Party} {party store file}
      (hrefused : s.handles party = some ⟨store, file, .refused⟩) : Step s (s.put party s.host none)
  | empties {s : System Party} {party store file holder tree}
      (hlocked : s.handles party = some ⟨store, file, .locked holder⟩)
      (htree : Tree.Rewritten s.host.tree tree file []) :
      Step s (s.put party { s.host with tree } (some ⟨store, file, .writing holder []⟩))
  | writes {s : System Party} {party store file holder written more tree}
      (hwriting : s.handles party = some ⟨store, file, .writing holder written⟩)
      (hrecord : written ++ more <+: holder.record)
      (htree : Tree.Rewritten s.host.tree tree file (written ++ more)) :
      Step s (s.put party { s.host with tree }
        (some ⟨store, file, .writing holder (written ++ more)⟩))
  | takes {s : System Party} {party store file holder}
      (hwritten : s.handles party = some ⟨store, file, .writing holder holder.record⟩) :
      Step s (s.put party s.host (some ⟨store, file, .holding holder⟩))
  | fails {s : System Party} {party store file phase}
      (htaking : s.handles party = some ⟨store, file, phase⟩) (hphase : phase.isTaking = true) :
      Step s (s.put party { s.host with locked := s.host.locked.filter (· != file) } none)
  | clears {s : System Party} {party store file holder tree}
      (hholding : s.handles party = some ⟨store, file, .holding holder⟩)
      (htree : Tree.Rewritten s.host.tree tree file []) :
      Step s (s.put party { s.host with tree } (some ⟨store, file, .cleared⟩))
  | closes {s : System Party} {party store file}
      (hcleared : s.handles party = some ⟨store, file, .cleared⟩) :
      Step s (s.put party { s.host with locked := s.host.locked.filter (· != file) } none)

section Put

variable {s : System Party} {party : Party} {host : Host} {handle : Option Handle}

theorem handles_put_self : (s.put party host handle).handles party = handle :=
  Function.update_self ..

theorem handles_put_of_ne {other : Party} (hne : other ≠ party) :
    (s.put party host handle).handles other = s.handles other :=
  Function.update_of_ne hne ..

theorem locks_put_of_ne {other : Party} (hne : other ≠ party) (file : Nat) :
    (s.put party host handle).Locks other file ↔ s.Locks other file := by
  rw [Locks, Locks, handles_put_of_ne hne]

theorem locks_put_none (file : Nat) : ¬ (s.put party host none).Locks party file :=
  not_locks_of_none handles_put_self file

theorem shown_put (hown : ∀ own, handle = some own → own.Shown host.tree)
    (hothers : ∀ other held, other ≠ party → s.handles other = some held → held.Shown host.tree)
    (other : Party) (held : Handle) (hheld : (s.put party host handle).handles other = some held) :
    held.Shown host.tree := by
  by_cases hother : other = party
  · rw [hother, handles_put_self] at hheld
    exact hown held hheld
  · rw [handles_put_of_ne hother] at hheld
    exact hothers other held hother hheld

/-- A step that moves no lock. -/
theorem Sound.put_of_locks_iff (hs : s.Sound) (hlocked : host.locked = s.host.locked)
    (hsame : ∀ file, (s.put party host handle).Locks party file ↔ s.Locks party file)
    (hshown : ∀ other held, (s.put party host handle).handles other = some held →
      held.Shown host.tree) : (s.put party host handle).Sound := by
  have hall : ∀ other file, (s.put party host handle).Locks other file ↔ s.Locks other file := by
    intro other file
    by_cases hother : other = party
    · exact hother ▸ hsame file
    · exact locks_put_of_ne hother file
  refine ⟨hshown, fun file => ?_, fun one other file => ?_⟩
  · change file ∈ host.locked ↔ _
    simp only [hall, hlocked, hs.locked_iff]
  · rw [hall, hall]
    exact hs.exclusive one other file

/-- The step of a party that is given the system's lock of a file that none had. -/
theorem Sound.put_of_gained (hs : s.Sound) {own : Handle} (hfree : own.file ∉ s.host.locked)
    (hlocked : host.locked = own.file :: s.host.locked) (hbefore : ∀ file, ¬ s.Locks party file)
    (hhas : own.phase.hasLock = true)
    (hshown : ∀ other held, (s.put party host (some own)).handles other = some held →
      held.Shown host.tree) : (s.put party host (some own)).Sound := by
  have hself : ∀ file, (s.put party host (some own)).Locks party file ↔ file = own.file := by
    intro file
    rw [locks_iff_of_handle handles_put_self]
    exact ⟨fun h => h.2.symm, fun h => ⟨hhas, h.symm⟩⟩
  have hothers : ∀ other file, other ≠ party → s.Locks other file → file ≠ own.file := by
    rintro other file - hlocks rfl
    exact hfree ((hs.locked_iff _).2 ⟨other, hlocks⟩)
  refine ⟨hshown, fun file => ?_, fun one other file hone hother => ?_⟩
  · change file ∈ host.locked ↔ _
    rw [hlocked, List.mem_cons, hs.locked_iff]
    constructor
    · rintro (rfl | ⟨other, hlocks⟩)
      · exact ⟨party, (hself _).2 rfl⟩
      · have hne : other ≠ party := fun h => hbefore file (h ▸ hlocks)
        exact ⟨other, (locks_put_of_ne hne file).2 hlocks⟩
    · rintro ⟨other, hlocks⟩
      by_cases hne : other = party
      · exact Or.inl ((hself file).1 (hne ▸ hlocks))
      · exact Or.inr ⟨other, (locks_put_of_ne hne file).1 hlocks⟩
  · by_cases honeParty : one = party <;> by_cases hotherParty : other = party
    · rw [honeParty, hotherParty]
    · rw [honeParty, hself] at hone
      exact absurd hone (hothers other file hotherParty
        ((locks_put_of_ne hotherParty file).1 hother))
    · rw [hotherParty, hself] at hother
      exact absurd hother (hothers one file honeParty ((locks_put_of_ne honeParty file).1 hone))
    · exact hs.exclusive one other file ((locks_put_of_ne honeParty file).1 hone)
        ((locks_put_of_ne hotherParty file).1 hother)

/-- The step of a party that closes its lock file: the system's lock goes with the handle. -/
theorem Sound.put_of_lost (hs : s.Sound) {own : Handle} (hown : s.handles party = some own)
    (hhas : own.phase.hasLock = true) :
    (s.put party { s.host with locked := s.host.locked.filter (· != own.file) } none).Sound := by
  have hlocks : s.Locks party own.file := ⟨own, hown, hhas, rfl⟩
  refine ⟨?_, fun file => ?_, fun one other file hone hother => ?_⟩
  · exact shown_put (by simp) fun other held _ hheld => hs.shown other held hheld
  · change file ∈ s.host.locked.filter (· != own.file) ↔ _
    rw [List.mem_filter, hs.locked_iff, bne_iff_ne]
    constructor
    · rintro ⟨⟨other, hother⟩, hne⟩
      have hparty : other ≠ party := by
        rintro rfl
        obtain ⟨held, hheld, -, rfl⟩ := hother
        rw [hown, Option.some.injEq] at hheld
        exact hne (congrArg Handle.file hheld.symm)
      exact ⟨other, (locks_put_of_ne hparty file).2 hother⟩
    · rintro ⟨other, hother⟩
      have hparty : other ≠ party := by
        rintro rfl
        exact locks_put_none file hother
      rw [locks_put_of_ne hparty] at hother
      refine ⟨⟨other, hother⟩, ?_⟩
      rintro rfl
      exact hparty (hs.exclusive other party _ hother hlocks)
  · have hparty : ∀ {any : Party}, (s.put party
        { s.host with locked := s.host.locked.filter (· != own.file) } none).Locks any file →
        any ≠ party ∧ s.Locks any file := by
      intro any hany
      have hne : any ≠ party := by
        rintro rfl
        exact locks_put_none file hany
      exact ⟨hne, (locks_put_of_ne hne file).1 hany⟩
    exact hs.exclusive one other file (hparty hone).2 (hparty hother).2

end Put

section Steps

variable {s after : System Party}

/-- A step that leaves the machine as it is. -/
theorem Sound.put_of_phase (hs : s.Sound) {party : Party} {store : String} {file : Nat}
    {phase next : Phase} (hown : s.handles party = some ⟨store, file, phase⟩)
    (hlock : next.hasLock = phase.hasLock)
    (hshows : ∀ content, phase.Shows content → next.Shows content) :
    (s.put party s.host (some ⟨store, file, next⟩)).Sound := by
  refine hs.put_of_locks_iff rfl ?_ ?_
  · intro other
    rw [locks_iff_of_handle handles_put_self, locks_iff_of_handle hown, hlock]
  · apply shown_put
    · rintro own ⟨⟩
      obtain ⟨content, hholds, hshown⟩ := hs.shown party _ hown
      exact ⟨content, hholds, hshows content hshown⟩
    · exact fun other held _ hheld => hs.shown other held hheld

/-- A party that has the lock of a file may rewrite it. -/
theorem Sound.put_of_rewritten (hs : s.Sound) {party : Party} {store : String} {file : Nat}
    {phase next : Phase} {tree : Tree} {content : List UInt8}
    (hown : s.handles party = some ⟨store, file, phase⟩) (hhas : phase.hasLock = true)
    (hnext : next.hasLock = true) (htree : Tree.Rewritten s.host.tree tree file content)
    (hshows : ∀ found, phase.Shows found → next.Shows content) :
    (s.put party { s.host with tree } (some ⟨store, file, next⟩)).Sound := by
  refine hs.put_of_locks_iff rfl ?_ ?_
  · intro other
    rw [locks_iff_of_handle handles_put_self, locks_iff_of_handle hown, hhas, hnext]
  · apply shown_put
    · rintro own ⟨⟩
      obtain ⟨found, hholds, hshown⟩ := hs.shown party _ hown
      exact ⟨content, htree.holds_self hholds, hshows found hshown⟩
    · intro other held hother hheld
      apply (hs.shown other held hheld).rewritten htree
      rintro hlock rfl
      exact hother (hs.exclusive other party _ ⟨held, hheld, hlock, rfl⟩ ⟨_, hown, hhas, rfl⟩)

theorem Sound.step (hs : s.Sound) (hstep : Step s after) : after.Sound := by
  cases hstep with
  | opens haway hopen hfile =>
      have hkept := Tree.kept_of_touchOpen hopen
      refine hs.put_of_locks_iff rfl ?_ ?_
      · intro other
        rw [locks_iff_of_handle handles_put_self]
        simp [Phase.hasLock, not_locks_of_none haway]
      · apply shown_put
        · rintro own ⟨⟩
          obtain ⟨content, hholds⟩ := Tree.holds_of_fileId? hfile
          exact ⟨content, hholds, trivial⟩
        · exact fun other held _ hheld => (hs.shown other held hheld).kept hkept
  | locks hopened hfree hprocess =>
      refine hs.put_of_gained hfree rfl ?_ ?_ ?_
      · simp [locks_iff_of_handle hopened, Phase.hasLock]
      · rfl
      · apply shown_put
        · rintro own ⟨⟩
          obtain ⟨content, hholds, -⟩ := hs.shown _ _ hopened
          exact ⟨content, hholds, hprocess⟩
        · exact fun other held _ hheld => hs.shown other held hheld
  | refuses hopened hheld => exact hs.put_of_phase hopened rfl fun _ _ => trivial
  | answers hrefused =>
      refine hs.put_of_locks_iff rfl ?_ ?_
      · intro other
        simp [locks_put_none, locks_iff_of_handle hrefused, Phase.hasLock]
      · exact shown_put (by simp) fun other held _ hheld => hs.shown other held hheld
  | empties hlocked htree =>
      exact hs.put_of_rewritten hlocked rfl rfl htree fun _ hshows => ⟨hshows, rfl⟩
  | writes hwriting hrecord htree =>
      exact hs.put_of_rewritten hwriting rfl rfl htree fun _ hshows => ⟨hshows.1, rfl⟩
  | takes hwritten => exact hs.put_of_phase hwritten rfl fun _ hshows => hshows
  | fails htaking hphase => exact hs.put_of_lost htaking (Phase.hasLock_of_isTaking hphase)
  | clears hholding htree => exact hs.put_of_rewritten hholding rfl rfl htree fun _ _ => rfl
  | closes hcleared => exact hs.put_of_lost hcleared rfl

/-- A run of steps, of any parties in any order. -/
abbrev Runs : System Party → System Party → Prop := Relation.ReflTransGen Step

theorem Sound.run (hs : s.Sound) (hrun : Runs s after) : after.Sound := by
  induction hrun with
  | refl => exact hs
  | tail _ hstep ih => exact ih.step hstep

end Steps

end System

/-! ### Taking and dropping in one go -/

section Acquire

variable {host : Host} {tree : Tree} {path store : String} {file : Nat} {content : List UInt8}

theorem holderAt?_of_holds (h : tree.Holds path file content) :
    holderAt? tree path = Holder.ofBytes? content := by
  rw [holderAt?, h.read_eq]

theorem acquire_of_free (h : host.tree.Holds (lockPath store) file content)
    (hfree : file ∉ host.locked) (holder : Holder) : acquire host store holder =
      (.ok ⟨lockPath store, file⟩, { host with
        tree := host.tree.overwrite file holder.record
        locked := file :: host.locked }) := by
  simp [acquire, h.touchOpen_eq, h.fileId?_eq, hfree, Holder.record]

theorem acquire_of_free_lock {lock : StoreLock} (content : List UInt8)
    (h : host.tree.Holds lock.path lock.file content) (hpath : lockPath store = lock.path)
    (hfree : lock.file ∉ host.locked) (holder : Holder) :
    ∃ after, acquire host store holder = (.ok lock, after) :=
  ⟨_, by rw [acquire_of_free (hpath ▸ h) hfree, hpath]⟩

theorem acquire_of_locked (h : host.tree.Holds (lockPath store) file content)
    (hlocked : file ∈ host.locked) (holder : Holder) : acquire host store holder =
      (.error (.held store (holderAt? host.tree (lockPath store))), host) := by
  simp [acquire, h.touchOpen_eq, h.fileId?_eq, hlocked]

/-- What can come of an attempt to take a lock: its file cannot be used, it is locked, or it was
free. -/
theorem acquire_cases (host : Host) (store : String) (holder : Holder) :
    (∃ fault, acquire host store holder = (.error (.unusable (lockPath store) fault), host)) ∨
    ∃ tree file, host.tree.touchOpen (lockPath store) = .ok tree ∧
      tree.fileId? (lockPath store) = some file ∧
      (file ∈ host.locked ∧ acquire host store holder =
          (.error (.held store (holderAt? tree (lockPath store))), { host with tree }) ∨
        file ∉ host.locked ∧ acquire host store holder = (.ok ⟨lockPath store, file⟩, { host with
          tree := tree.overwrite file holder.record
          locked := file :: host.locked })) := by
  cases hopen : host.tree.touchOpen (lockPath store) with
  | error fault => exact Or.inl ⟨fault, by simp [acquire, hopen]⟩
  | ok tree =>
      cases hfile : tree.fileId? (lockPath store) with
      | none => exact Or.inl ⟨.notFound, by simp [acquire, hopen, hfile]⟩
      | some file =>
          refine Or.inr ⟨tree, file, rfl, hfile, ?_⟩
          by_cases hlocked : file ∈ host.locked
          · exact Or.inl ⟨hlocked, by simp [acquire, hopen, hfile, hlocked]⟩
          · exact Or.inr ⟨hlocked, by simp [acquire, hopen, hfile, hlocked, Holder.record]⟩

/-- The lock file of a lock names nobody, and the next who tries has the lock. -/
def IsFree (host : Host) (lock : StoreLock) : Prop :=
  holderAt? host.tree lock.path = none ∧ ∀ store holder, lockPath store = lock.path →
    ∃ after, acquire host store holder = (.ok lock, after)

theorem isFree_of_empty {lock : StoreLock} (h : host.tree.Holds lock.path lock.file [])
    (hfree : lock.file ∉ host.locked) : IsFree host lock := by
  refine ⟨by rw [holderAt?_of_holds h, Holder.ofBytes?_nil], fun store holder hpath => ?_⟩
  exact acquire_of_free_lock [] h hpath hfree holder

theorem isFree_release {lock : StoreLock} (h : host.tree.Holds lock.path lock.file content) :
    IsFree (release host lock) lock := by
  apply isFree_of_empty
  · exact (Tree.rewritten_overwrite host.tree lock.file []).holds_self h
  · simp [release]

end Acquire

namespace System

variable {Party : Type}

/-- A party has taken a lock, in which the holder is recorded, and not begun to drop it. -/
def Live (s : System Party) (party : Party) (lock : StoreLock) (holder : Holder) : Prop :=
  ∃ handle, s.handles party = some handle ∧ handle.lock = lock ∧ handle.phase = .holding holder

variable [DecidableEq Party]

theorem put_put (s : System Party) (party : Party) (host next : Host)
    (handle other : Option Handle) :
    (s.put party host handle).put party next other = s.put party next other := by
  simp [put]

theorem put_away {s : System Party} {party : Party} (haway : s.handles party = none) :
    s.put party s.host none = s := by
  rw [put, ← haway, Function.update_eq_self]

/-- A run in which one party is changed goes on with that party's next step. -/
theorem runs_put {s : System Party} {party : Party} {host next : Host}
    {handle other : Option Handle} (hrun : Runs s (s.put party host handle))
    (hstep : Step (s.put party host handle) ((s.put party host handle).put party next other)) :
    Runs s (s.put party next other) :=
  put_put s party host next handle other ▸ hrun.tail hstep

/-- The handle of a party that tried to take a lock. -/
def takenHandle (store : String) (holder : Holder) : Except Fault StoreLock → Option Handle
  | .ok lock => some ⟨store, lock.file, .holding holder⟩
  | .error _ => none

/-- A lock that is taken, or refused, in one go is so in the steps of one party. -/
theorem runs_acquire {s : System Party} {party : Party} (haway : s.handles party = none)
    (store : String) {holder : Holder} (hprocess : holder.process < 2 ^ 32) :
    Runs s (s.put party (acquire s.host store holder).2
      (takenHandle store holder (acquire s.host store holder).1)) := by
  rcases acquire_cases s.host store holder with ⟨fault, hacquire⟩ |
    ⟨tree, file, hopen, hfile, ⟨hlocked, hacquire⟩ | ⟨hfree, hacquire⟩⟩
  · rw [hacquire]
    simp only [takenHandle, put_away haway]
    exact .refl
  · have hopened : Runs s _ := .single (.opens haway hopen hfile)
    have hrefused := runs_put hopened (.refuses handles_put_self hlocked)
    have hanswered := runs_put hrefused (.answers handles_put_self)
    rw [hacquire]
    exact hanswered
  · have hempty := tree.rewritten_overwrite file []
    have hrecord := hempty.again (tree.rewritten_overwrite file ([] ++ holder.record))
    have hopened : Runs s _ := .single (.opens haway hopen hfile)
    have hlocked := runs_put hopened (.locks handles_put_self hfree hprocess)
    have hemptied := runs_put hlocked (.empties handles_put_self hempty)
    have hwritten := runs_put hemptied (.writes handles_put_self List.prefix_rfl hrecord)
    have htaken := runs_put hwritten (.takes handles_put_self)
    rw [hacquire]
    exact htaken

/-- A lock that is dropped in one go is so in the steps of its party. -/
theorem runs_release {s : System Party} {party : Party} {lock : StoreLock} {holder : Holder}
    (hlive : s.Live party lock holder) : Runs s (s.put party (release s.host lock) none) := by
  obtain ⟨⟨store, file, phase⟩, hhandle, rfl, rfl⟩ := hlive
  have hcleared : Runs s _ := .single (.clears hhandle (s.host.tree.rewritten_overwrite file []))
  exact runs_put hcleared (.closes handles_put_self)

/-- The locks that parties have exclude each other, and their files name them. -/
structure Excludes (s : System Party) : Prop where
  single : ∀ one other lock second holder holder', s.Live one lock holder →
    s.Live other second holder' → lock.path = second.path →
      one = other ∧ lock = second ∧ holder = holder'
  /-- While a lock lives, other parties come no further with its file than to be refused. -/
  alone : ∀ party lock holder, s.Live party lock holder → ∀ other handle, other ≠ party →
    s.handles other = some handle → handle.lock.path = lock.path → handle.phase.hasLock = false
  named : ∀ party lock holder, s.Live party lock holder →
    holderAt? s.host.tree lock.path = some holder
  refused : ∀ party lock holder, s.Live party lock holder → ∀ store other,
    lockPath store = lock.path →
      acquire s.host store other = (.error (.held store (some holder)), s.host)
  dropped : ∀ party lock holder, s.Live party lock holder → IsFree (release s.host lock) lock
  cleared : ∀ party handle, s.handles party = some handle → handle.phase = .cleared →
    holderAt? s.host.tree handle.lock.path = none
  /-- However a party gives the system's lock back, the next who tries has it. -/
  closed : ∀ party handle, s.handles party = some handle → handle.phase.hasLock = true →
    ∀ store holder, lockPath store = handle.lock.path → ∃ after,
      acquire { s.host with locked := s.host.locked.filter (· != handle.file) } store holder =
        (.ok handle.lock, after)
  /-- A lock that no party has is there to be taken. -/
  available : ∀ store file, s.host.tree.fileId? (lockPath store) = some file →
    (∀ party, ¬ s.Locks party file) →
      ∀ holder, ∃ after, acquire s.host store holder = (.ok ⟨lockPath store, file⟩, after)
  /-- Taking a lock in one go, or failing to, is a run of steps. -/
  acquires : ∀ party, s.handles party = none → ∀ store holder, holder.process < 2 ^ 32 →
    Runs s (s.put party (acquire s.host store holder).2
      (takenHandle store holder (acquire s.host store holder).1))
  /-- So is dropping one. -/
  releases : ∀ party lock holder, s.Live party lock holder →
    Runs s (s.put party (release s.host lock) none)

section Sound

variable {s : System Party} {party : Party} {lock : StoreLock} {holder : Holder}

omit [DecidableEq Party] in
theorem Sound.live (hs : s.Sound) (hlive : s.Live party lock holder) :
    holder.process < 2 ^ 32 ∧ s.host.tree.Holds lock.path lock.file holder.record ∧
      s.Locks party lock.file := by
  obtain ⟨⟨store, file, phase⟩, hhandle, rfl, rfl⟩ := hlive
  obtain ⟨content, hholds, hprocess, rfl⟩ := hs.shown party _ hhandle
  exact ⟨hprocess, hholds, _, hhandle, rfl, rfl⟩

omit [DecidableEq Party] in
theorem Sound.holderAt?_of_live (hs : s.Sound) (hlive : s.Live party lock holder) :
    holderAt? s.host.tree lock.path = some holder := by
  obtain ⟨hprocess, hholds, -⟩ := hs.live hlive
  rw [holderAt?_of_holds hholds, Holder.record, Holder.ofBytes?_toJson hprocess]

omit [DecidableEq Party] in
theorem Sound.eq_of_live (hs : s.Sound) (hlive : s.Live party lock holder) {other : Party}
    {handle : Handle} (hhandle : s.handles other = some handle)
    (hpath : handle.lock.path = lock.path) (hlock : handle.phase.hasLock = true) :
    other = party := by
  obtain ⟨-, hholds, hlocks⟩ := hs.live hlive
  obtain ⟨content, hother, -⟩ := hs.shown other handle hhandle
  change s.host.tree.Holds handle.lock.path handle.file content at hother
  have hfile : lock.file = handle.file := hholds.id_eq (hpath ▸ hother)
  exact hs.exclusive other party lock.file ⟨handle, hhandle, hlock, hfile.symm⟩ hlocks

theorem Sound.excludes (hs : s.Sound) : s.Excludes where
  single one other lock second holder holder' hone hother hpath := by
    obtain ⟨handle, hhandle, rfl, hphase⟩ := hone
    obtain rfl := hs.eq_of_live hother hhandle hpath (by rw [hphase]; rfl)
    obtain ⟨handle', hhandle', rfl, hphase'⟩ := hother
    obtain rfl := Option.some.inj (hhandle.symm.trans hhandle')
    exact ⟨rfl, rfl, Phase.holding.inj (hphase.symm.trans hphase')⟩
  alone party lock holder hlive other handle hne hhandle hpath := by
    by_contra hlock
    exact hne (hs.eq_of_live hlive hhandle hpath (by simpa using hlock))
  named party lock holder hlive := hs.holderAt?_of_live hlive
  refused party lock holder hlive store other hpath := by
    obtain ⟨-, hholds, hlocks⟩ := hs.live hlive
    have hlocked : lock.file ∈ s.host.locked := (hs.locked_iff _).2 ⟨party, hlocks⟩
    rw [acquire_of_locked (hpath ▸ hholds) hlocked, hpath, hs.holderAt?_of_live hlive]
  dropped party lock holder hlive := isFree_release (hs.live hlive).2.1
  cleared party handle hhandle hphase := by
    obtain ⟨content, hholds, hshows⟩ := hs.shown party handle hhandle
    rw [hphase] at hshows
    obtain rfl : content = [] := hshows
    exact (holderAt?_of_holds hholds).trans Holder.ofBytes?_nil
  closed party handle hhandle hlock store holder hpath := by
    obtain ⟨content, hholds, -⟩ := hs.shown party handle hhandle
    refine acquire_of_free_lock content ?_ hpath ?_ holder
    · exact hholds
    · simp [Handle.lock]
  available store file hfile hfree holder := by
    obtain ⟨content, hholds⟩ := Tree.holds_of_fileId? hfile
    have hunlocked : file ∉ s.host.locked := fun hmem =>
      have ⟨party, hlocks⟩ := (hs.locked_iff file).1 hmem
      hfree party hlocks
    exact ⟨_, acquire_of_free hholds hunlocked holder⟩
  acquires party haway store holder hprocess := runs_acquire haway store hprocess
  releases party lock holder hlive := runs_release hlive

end Sound

end System

/-! ### Stores that cannot be opened -/

theorem locked_makeParent {host before : Host} {path : String}
    (h : Engine.makeParent host path = .ok before) : before.locked = host.locked := by
  unfold Engine.makeParent at h
  split at h
  · exact congrArg Host.locked (Except.ok.inj h).symm
  · exact congrArg Host.locked (Except.ok.inj h).symm
  · split at h
    · obtain rfl := Except.ok.inj h
      rfl
    · cases h

/-- A store that cannot be opened although its lock was taken leaves the lock free. -/
theorem isFree_of_openFile {host before after : Host} {path : String} {holder : Holder}
    {lock : StoreLock} {cause : Engine.EngineError}
    (hparent : Engine.makeParent host path = .ok before)
    (hlock : (acquire before path holder).1 = .ok lock)
    (hopen : Engine.Connection.openFile host path holder = (.error cause, after)) :
    IsFree after lock ∧ after.locked = host.locked := by
  rcases acquire_cases before path holder with ⟨fault, hacquire⟩ |
    ⟨tree, file, -, hfile, ⟨-, hacquire⟩ | ⟨hfree, hacquire⟩⟩
  · rw [hacquire] at hlock
    cases hlock
  · rw [hacquire] at hlock
    cases hlock
  · rw [hacquire] at hlock
    obtain rfl := Except.ok.inj hlock
    obtain ⟨content, hholds⟩ := Tree.holds_of_fileId? hfile
    have htaken := (tree.rewritten_overwrite file holder.record).holds_self hholds
    rw [Engine.Connection.openFile, hparent] at hopen
    simp only [hacquire] at hopen
    split at hopen
    · obtain ⟨-, rfl⟩ := Prod.mk.inj hopen
      refine ⟨isFree_release htaken, ?_⟩
      have hothers : before.locked.filter (· != file) = before.locked := by
        rw [List.filter_eq_self]
        intro other hother
        exact bne_iff_ne.2 (ne_of_mem_of_not_mem hother hfree)
      calc (file :: before.locked).filter (· != file)
          = before.locked.filter (· != file) := List.filter_cons_of_neg (by simp)
        _ = before.locked := hothers
        _ = host.locked := locked_makeParent hparent
    · cases (Prod.mk.inj hopen).1

namespace System

variable {Party : Type} [DecidableEq Party]

/-- Whatever the lock files held and whatever parties did, the locks that they have exclude each
other and name their holders. Lock files are shared by no two names of stores, and a store that
cannot be opened gives its lock back. -/
theorem excludes_of_run {first s : System Party} (hidle : first.Idle) (hrun : Runs first s) :
    s.Excludes ∧
    (∀ store other, Path.fileName? store ≠ Path.fileName? other →
      lockPath store ≠ lockPath other) ∧
    ∀ path holder before lock cause after, Engine.makeParent s.host path = .ok before →
      (acquire before path holder).1 = .ok lock →
      Engine.Connection.openFile s.host path holder = (.error cause, after) →
        IsFree after lock ∧ after.locked = s.host.locked := by
  refine ⟨(hidle.sound.run hrun).excludes, fun store other hne heq => ?_, ?_⟩
  · exact hne (fileName?_eq_of_lockPath heq)
  · intro path holder before lock cause after hparent hlock hopen
    exact isFree_of_openFile hparent hlock hopen

/-! ### A lock file that an older holder left -/

def olderHolder : Holder := ⟨4000000000, "2024-01-01T00:00:00+00:00"⟩

def newHolder : Holder := ⟨7, "now"⟩

/-- A directory with the lock file of the store `s`. -/
def oneLockFile (content : List UInt8) : Tree :=
  ⟨NameMap.empty.insert "s.lock" (.file 1 content 5), 2, 0⟩

/-- The lock file names a holder that is gone. -/
def leftBehind : System Bool := ⟨⟨oneLockFile olderHolder.record, [], []⟩, fun _ => none⟩

/-- One of two parties has taken the lock of the store. -/
def takenOver : System Bool :=
  leftBehind.put true (acquire leftBehind.host "s" newHolder).2
    (takenHandle "s" newHolder (acquire leftBehind.host "s" newHolder).1)

theorem holds_oneLockFile (content : List UInt8) :
    (oneLockFile content).Holds "s.lock" 1 content := by
  have hstat : (oneLockFile content).stat "s.lock" = .ok (.file 1 content 5) := by cbv
  exact ⟨5, hstat⟩

theorem live_takenOver : takenOver.Live true ⟨"s.lock", 1⟩ newHolder := by
  have hpath : lockPath "s" = "s.lock" := by cbv
  have hholds : leftBehind.host.tree.Holds (lockPath "s") 1 olderHolder.record :=
    hpath ▸ holds_oneLockFile olderHolder.record
  have hacquire := acquire_of_free hholds List.not_mem_nil newHolder
  refine ⟨⟨"s", 1, .holding newHolder⟩, ?_, by rw [Handle.lock, hpath], rfl⟩
  rw [takenOver, handles_put_self, hacquire]
  rfl

theorem excludes_of_run_leftBehind : leftBehind.Idle ∧ Runs leftBehind takenOver ∧
    holderAt? takenOver.host.tree "s.lock" = some newHolder ∧
      acquire takenOver.host "s" olderHolder =
        (.error (.held "s" (some newHolder)), takenOver.host) := by
  have hidle : leftBehind.Idle := ⟨rfl, fun _ => rfl⟩
  have hrun : Runs leftBehind takenOver := runs_acquire rfl "s" (by decide)
  have hexcludes := (excludes_of_run hidle hrun).1
  exact ⟨hidle, hrun, hexcludes.named _ _ _ live_takenOver,
    hexcludes.refused _ _ _ live_takenOver "s" olderHolder (by cbv)⟩

end System

end LiveTables.Lock
