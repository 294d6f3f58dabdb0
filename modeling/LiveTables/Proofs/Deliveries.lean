import LiveTables.Proofs.CacheRuns

/-!
# Deliveries

A change that the inbox of a cache takes is noted once, in the order of sending, and at the latest
by the next operation that looks at the tables. Closing the inbox loses nothing, nor does a change
that fails. Replacing the inbox does: whatever waits in it then is never noted.
-/

namespace LiveTables

open LiveTables.Engine LiveTables.Files LiveTables.Sql LiveTables.Table LiveTables.Text
open LiveTables.Watch

namespace Cache

/-- The operations that take the waiting changes out of the inbox. -/
def Operation.drains : Operation → Bool
  | .drain | .plan _ | .execute _ | .tables | .describe _ => true
  | .change _ | .attach | .send _ | .disconnect | .refresh _ | .engine _ => false

/-- The changes of an operation that the inbox takes. -/
def taken (cache : Cache) : Operation → List Change
  | .send changes => if (cache.send changes).1 then changes else []
  | .change _ | .attach | .disconnect | .drain | .plan _ | .refresh _ | .execute _ | .tables
  | .describe _ | .engine _ => []

/-- The changes out of the inbox that an operation notes. -/
def noted (cache : Cache) (operation : Operation) : List Change :=
  if operation.drains then cache.waiting else []

def takenIn (cache : Cache) : List (Tree × Operation) → List Change
  | [] => []
  | (tree, operation) :: rest => cache.taken operation ++ (cache.apply tree operation).takenIn rest

def notedIn (cache : Cache) : List (Tree × Operation) → List Change
  | [] => []
  | (tree, operation) :: rest => cache.noted operation ++ (cache.apply tree operation).notedIn rest

/-- No inbox is replaced while changes wait in it. -/
def Undisturbed (cache : Cache) : List (Tree × Operation) → Prop
  | [] => True
  | (tree, operation) :: rest =>
    (operation = .attach → cache.waiting = []) ∧ (cache.apply tree operation).Undisturbed rest

def Listening (cache : Cache) : Prop :=
  ∃ inbox, cache.inbox = some inbox ∧ inbox.connected = true

/-! ### The inbox -/

section Inbox

variable (cache : Cache) (tree : Tree)

theorem inbox_install (table : Descriptor) (batch : Batch) :
    (cache.install table batch).2.inbox = cache.inbox := by
  unfold install
  split
  · rfl
  · dsimp only
    split <;> rfl

theorem inbox_reload (name : String) : (cache.reload tree name).2.inbox = cache.inbox := by
  unfold reload
  split
  · rfl
  · split
    · rfl
    · split
      · rfl
      · exact inbox_install cache _ _

theorem inbox_refreshEach (names : List String) :
    (cache.refreshEach tree names).2.inbox = cache.inbox :=
  refreshEach_induction (motive := fun after => after.inbox = cache.inbox) tree
    (fun after name h => (inbox_reload after tree name).trans h) rfl names

theorem inbox_drain : (cache.drain tree).2.inbox = cache.inbox.bind (·.emptied?) :=
  (frame_drain cache tree).inbox

theorem inbox_execute (query : String) :
    (cache.execute tree query).2.inbox = cache.inbox.bind (·.emptied?) := by
  have hfreshened : (cache.freshened tree query).inbox = cache.inbox.bind (·.emptied?) :=
    (inbox_refreshEach _ tree _).trans (inbox_drain cache tree)
  rcases execute_cases cache tree query with hafter | hafter
  · rw [hafter, hfreshened]
  · rw [hafter]
    exact hfreshened

theorem inbox_handleChanges (changes : List Change) :
    (cache.handleChanges tree changes).inbox = cache.inbox :=
  handleChanges_induction (motive := fun after => after.inbox = cache.inbox) tree
    (fun after change h => (frame_handleChange after tree change).inbox.trans h) changes rfl

theorem waiting_congr {after : Cache} (h : after.inbox = cache.inbox) :
    after.waiting = cache.waiting := by
  rw [waiting, waiting, h]

theorem waiting_of_emptied {after : Cache} (h : after.inbox = cache.inbox.bind (·.emptied?)) :
    after.waiting = [] := by
  rw [waiting, h]
  cases cache.inbox with
  | none => rfl
  | some inbox =>
      simp only [Option.bind_some, Inbox.emptied?]
      split_ifs <;> rfl

theorem inbox_of_drains {operation : Operation} (h : operation.drains = true) :
    (cache.apply tree operation).inbox = cache.inbox.bind (·.emptied?) := by
  cases operation with
  | execute query => exact inbox_execute cache tree query
  | drain => exact inbox_drain cache tree
  | plan query => exact inbox_drain cache tree
  | tables => exact inbox_drain cache tree
  | describe name => exact inbox_drain cache tree
  | _ => cases h

end Inbox

/-! ### One operation -/

section Step

variable (cache : Cache) (tree : Tree)

theorem send_of_listening {inbox : Inbox} (hinbox : cache.inbox = some inbox)
    (hconnected : inbox.connected = true) (changes : List Change) :
    cache.send changes = (true, { cache with inbox := some (inbox.send changes) }) := by
  simp [send, hinbox, hconnected]

theorem send_of_not_listening (h : ¬ cache.Listening) (changes : List Change) :
    cache.send changes = (false, cache) := by
  unfold send
  split
  · rename_i inbox hinbox
    exact if_neg fun hconnected => h ⟨inbox, hinbox, hconnected⟩
  · rfl

theorem fst_send_iff (changes : List Change) : (cache.send changes).1 = true ↔ cache.Listening := by
  constructor
  · intro htakes
    by_contra h
    rw [send_of_not_listening cache h] at htakes
    cases htakes
  · rintro ⟨inbox, hinbox, hconnected⟩
    rw [send_of_listening cache hinbox hconnected]

theorem waiting_send (changes : List Change) :
    (cache.send changes).2.waiting = cache.waiting ++ cache.taken (.send changes) := by
  by_cases h : cache.Listening
  · obtain ⟨inbox, hinbox, hconnected⟩ := h
    rw [taken, send_of_listening cache hinbox hconnected]
    simp [waiting, hinbox, Inbox.send]
  · rw [taken, send_of_not_listening cache h]
    simp

/-- What waited and what is sent is noted or waits, unless the inbox is replaced. -/
theorem taken_step {operation : Operation} (h : operation = .attach → cache.waiting = []) :
    cache.waiting ++ cache.taken operation =
      cache.noted operation ++ (cache.apply tree operation).waiting := by
  cases hdrains : operation.drains with
  | true =>
      have htaken : cache.taken operation = [] := by
        cases operation <;> first | rfl | cases hdrains
      rw [htaken, noted, if_pos hdrains,
        waiting_of_emptied cache (inbox_of_drains cache tree hdrains)]
  | false =>
      rw [noted, hdrains, if_neg Bool.false_ne_true, List.nil_append]
      cases operation with
      | change change =>
          rw [taken, List.append_nil]
          exact (waiting_congr cache (frame_handleChange cache tree change).inbox).symm
      | attach =>
          rw [h rfl]
          rfl
      | send changes => exact (waiting_send cache changes).symm
      | disconnect =>
          rw [taken, List.append_nil, apply, disconnect, waiting, waiting]
          cases cache.inbox <;> rfl
      | refresh names =>
          rw [taken, List.append_nil]
          exact (waiting_congr cache (inbox_refreshEach cache tree (nameSet names))).symm
      | engine refusals => exact List.append_nil _
      | _ => cases hdrains

theorem listening_congr {after : Cache} (h : after.inbox = cache.inbox) :
    after.Listening ↔ cache.Listening := by
  rw [Listening, Listening, h]

theorem listening_of_emptied {after : Cache} (h : after.inbox = cache.inbox.bind (·.emptied?)) :
    after.Listening ↔ cache.Listening := by
  rw [Listening, Listening, h]
  cases cache.inbox with
  | none => simp
  | some inbox => cases hconnected : inbox.connected <;> simp [Inbox.emptied?, hconnected]

/-- An inbox takes changes from the time it is put in place until it is closed. -/
theorem listening_apply (operation : Operation) : (cache.apply tree operation).Listening ↔
    operation = .attach ∨ operation ≠ .disconnect ∧ cache.Listening := by
  cases hdrains : operation.drains with
  | true =>
      have hne : operation ≠ .attach ∧ operation ≠ .disconnect := by
        constructor <;> rintro rfl <;> cases hdrains
      simp [listening_of_emptied cache (inbox_of_drains cache tree hdrains), hne]
  | false =>
      cases operation with
      | change change =>
          simpa [apply] using listening_congr cache (frame_handleChange cache tree change).inbox
      | attach => simp [apply, attach, Listening, Inbox.new]
      | send changes =>
          by_cases h : cache.Listening
          · obtain ⟨inbox, hinbox, hconnected⟩ := h
            simp [apply, send_of_listening cache hinbox hconnected, Listening, Inbox.send, hinbox,
              hconnected]
          · simp [apply, send_of_not_listening cache h]
      | disconnect => simp [apply, disconnect, Listening, Inbox.disconnect]
      | refresh names =>
          simpa [apply, ensureFresh] using
            listening_congr cache (inbox_refreshEach cache tree (nameSet names))
      | engine refusals => simp [apply, withRefusals, Listening]
      | _ => cases hdrains

theorem drain_eq_foldl : cache.drain tree = (cache.waiting.length,
    cache.waiting.foldl (fun now change => (now.handleChange tree change).2) cache.emptied) := by
  rw [← handleChanges_eq_foldl, ← drain_eq]
  refine Prod.ext ?_ rfl
  rw [drain, waiting]
  cases cache.inbox <;> rfl

theorem drain_drained : (cache.drain tree).2.drain tree = (0, (cache.drain tree).2) := by
  have hinbox := inbox_drain cache tree
  -- an inbox that has been emptied stays as it is when it is emptied again
  have hemptied : (cache.drain tree).2.emptied = (cache.drain tree).2 := by
    have hbind : (cache.drain tree).2.inbox.bind (·.emptied?) = (cache.drain tree).2.inbox := by
      rw [hinbox]
      cases cache.inbox with
      | none => rfl
      | some inbox => cases hconnected : inbox.connected <;> simp [Inbox.emptied?, hconnected]
    rw [emptied, hbind]
  rw [drain_eq_foldl, waiting_of_emptied cache hinbox, hemptied]
  rfl

end Step

/-! ### Runs -/

/-- What sending changes promises, in a run of a cache. -/
structure Delivers (cache : Cache) (steps : List (Tree × Operation)) : Prop where
  accepts : ∀ changes, ((cache.run steps).send changes).1 = true ↔ (cache.run steps).Listening
  listens : ∀ tree operation, ((cache.run steps).apply tree operation).Listening ↔
    operation = .attach ∨ operation ≠ .disconnect ∧ (cache.run steps).Listening
  /-- What has been taken is noted or waits, once and in the order of sending. -/
  conserved : cache.waiting ++ cache.takenIn steps =
    cache.notedIn steps ++ (cache.run steps).waiting
  /-- With the next operation that drains, everything is noted. -/
  prompt : ∀ tree operation, operation.drains = true →
    cache.waiting ++ cache.takenIn steps = cache.notedIn (steps ++ [(tree, operation)])
  /-- Draining passes on each change that waits, whatever becomes of those before it. -/
  drains : ∀ tree, (cache.run steps).drain tree = ((cache.run steps).waiting.length,
    (cache.run steps).waiting.foldl (fun now change => (now.handleChange tree change).2)
      (cache.run steps).emptied)
  /-- An operation that drains does so before all else. -/
  first : ∀ tree query name, ∀ drained, drained = ((cache.run steps).drain tree).2 →
    drained.drain tree = (0, drained) ∧
    (cache.run steps).plan tree query = drained.plan tree query ∧
    (cache.run steps).execute tree query = drained.execute tree query ∧
    (cache.run steps).tables tree = drained.tables tree ∧
    (cache.run steps).descriptor? tree name = drained.descriptor? tree name

theorem taken_run {cache : Cache} {steps : List (Tree × Operation)} (h : cache.Undisturbed steps) :
    cache.waiting ++ cache.takenIn steps =
      cache.notedIn steps ++ (cache.run steps).waiting := by
  induction steps generalizing cache with
  | nil => simp [takenIn, notedIn, run]
  | cons step rest ih =>
      obtain ⟨tree, operation⟩ := step
      calc cache.waiting ++ cache.takenIn ((tree, operation) :: rest)
        _ = cache.waiting ++ cache.taken operation ++
              (cache.apply tree operation).takenIn rest := by
          rw [takenIn, List.append_assoc]
        _ = cache.noted operation ++ ((cache.apply tree operation).waiting ++
              (cache.apply tree operation).takenIn rest) := by
          rw [taken_step cache tree h.1, List.append_assoc]
        _ = cache.notedIn ((tree, operation) :: rest) ++
              (cache.run ((tree, operation) :: rest)).waiting := by
          rw [ih h.2, notedIn, List.append_assoc]
          rfl

theorem takenIn_append (cache : Cache) (first second : List (Tree × Operation)) :
    cache.takenIn (first ++ second) = cache.takenIn first ++ (cache.run first).takenIn second := by
  induction first generalizing cache with
  | nil => rfl
  | cons step rest ih =>
      rw [List.cons_append, takenIn, takenIn, ih, List.append_assoc]
      rfl

theorem takenIn_changes (cache : Cache) (tree : Tree) (changes : List Change) :
    cache.takenIn ((changes.map Operation.change).map fun operation => (tree, operation)) = [] := by
  induction changes generalizing cache with
  | nil => rfl
  | cons change rest ih => exact ih (cache.handleChange tree change).2

theorem undisturbed_append (cache : Cache) (first second : List (Tree × Operation)) :
    cache.Undisturbed (first ++ second) ↔
      cache.Undisturbed first ∧ (cache.run first).Undisturbed second := by
  induction first generalizing cache with
  | nil => simp [Undisturbed, run]
  | cons step rest ih =>
      rw [List.cons_append, Undisturbed, Undisturbed, ih, and_assoc]
      rfl

theorem undisturbed_of_no_attach {cache : Cache} {steps : List (Tree × Operation)}
    (h : ∀ step ∈ steps, step.2 ≠ .attach) : cache.Undisturbed steps := by
  induction steps generalizing cache with
  | nil => trivial
  | cons step rest ih =>
      obtain ⟨hfirst, hrest⟩ := List.forall_mem_cons.1 h
      exact ⟨fun hattach => absurd hattach hfirst, ih hrest⟩

theorem noted_sublist_step (cache : Cache) (tree : Tree) (operation : Operation) :
    (cache.noted operation ++ (cache.apply tree operation).waiting).Sublist
      (cache.waiting ++ cache.taken operation) := by
  by_cases h : operation = .attach
  · subst h
    exact List.nil_sublist _
  · rw [taken_step cache tree fun heq => absurd heq h]

/-- Nothing is noted twice, out of order or without having been sent, in any run. -/
theorem noted_sublist_taken (cache : Cache) (steps : List (Tree × Operation)) :
    (cache.notedIn steps ++ (cache.run steps).waiting).Sublist
      (cache.waiting ++ cache.takenIn steps) := by
  induction steps generalizing cache with
  | nil => simp [takenIn, notedIn, run]
  | cons step rest ih =>
      obtain ⟨tree, operation⟩ := step
      have hstep := noted_sublist_step cache tree operation
      have hrest := (ih (cache.apply tree operation)).append_left (cache.noted operation)
      rw [← List.append_assoc, ← List.append_assoc] at hrest
      rw [takenIn, ← List.append_assoc]
      exact hrest.trans (hstep.append_right _)

/-- Changes are lost in a run exactly if an inbox in which some wait is replaced in it. -/
theorem undisturbed_iff {cache : Cache} {steps : List (Tree × Operation)} :
    cache.Undisturbed steps ↔
      cache.waiting ++ cache.takenIn steps = cache.notedIn steps ++ (cache.run steps).waiting := by
  refine ⟨taken_run, fun h => ?_⟩
  induction steps generalizing cache with
  | nil => trivial
  | cons step rest ih =>
      obtain ⟨tree, operation⟩ := step
      set after := cache.apply tree operation with hafter
      have hrun : cache.run ((tree, operation) :: rest) = after.run rest := rfl
      -- neither the first operation nor the others note more than there is, so none loses any
      have hfirst := (noted_sublist_step cache tree operation).length_le
      have hrest := noted_sublist_taken after rest
      have hlength := congrArg List.length h
      simp only [takenIn, notedIn, hrun, ← hafter, List.length_append] at hfirst hlength
      have hkept : (after.notedIn rest ++ (after.run rest).waiting).length =
          (after.waiting ++ after.takenIn rest).length := by
        have hle := hrest.length_le
        simp only [List.length_append] at hle ⊢
        omega
      refine ⟨?_, ih (hrest.eq_of_length hkept).symm⟩
      rintro rfl
      have hnone : cache.noted .attach = [] ∧ cache.taken .attach = [] ∧ after.waiting = [] :=
        ⟨rfl, rfl, rfl⟩
      simp only [List.length_append, hnone, List.length_nil] at hkept hlength
      exact List.eq_nil_of_length_eq_zero (by omega)

theorem notedIn_concat (cache : Cache) (steps : List (Tree × Operation)) (tree : Tree)
    (operation : Operation) : cache.notedIn (steps ++ [(tree, operation)]) =
      cache.notedIn steps ++ (cache.run steps).noted operation := by
  induction steps generalizing cache with
  | nil => simp [notedIn, run]
  | cons step rest ih =>
      rw [List.cons_append, notedIn, notedIn, ih, List.append_assoc]
      rfl

theorem delivers_of_undisturbed {cache : Cache} {steps : List (Tree × Operation)}
    (hundisturbed : cache.Undisturbed steps) : Delivers cache steps := by
  have hconserved := undisturbed_iff.1 hundisturbed
  refine ⟨fst_send_iff _, listening_apply _, hconserved, ?_, drain_eq_foldl _, ?_⟩
  · intro tree operation hdrains
    rw [notedIn_concat, noted, if_pos hdrains, hconserved]
  · rintro tree query name drained rfl
    have hagain := drain_drained (cache.run steps) tree
    have hplan : (cache.run steps).plan tree query =
        ((cache.run steps).drain tree).2.plan tree query := by
      rw [plan, plan, hagain]
    refine ⟨hagain, hplan, ?_, ?_, ?_⟩
    · rw [execute, execute, hplan]
    · rw [tables, tables, hagain]
    · rw [descriptor?, descriptor?, hagain]

/-- The first change cannot be noted, the inbox is closed while both wait, and another one is put in
its place afterwards. -/
theorem delivers_of_drained_inbox : Delivers (.new .inMemory ⟨44, false⟩ "c" .substring)
    [(.empty, .attach), (oneFile, .send [changeAt "/b.c" 5, changeAt "/a.c" 5]),
      (oneFile, .disconnect), (oneFile, .drain), (oneFile, .attach)] := by
  refine delivers_of_undisturbed ⟨fun _ => rfl, nofun, nofun, nofun, fun _ => ?_, trivial⟩
  exact waiting_of_emptied _ (inbox_of_drains _ oneFile rfl)

theorem not_delivers_of_replaced_inbox : ¬ Delivers (.new .inMemory ⟨44, false⟩ "c" .substring)
    [(.empty, .attach), (oneFile, .send [changeAt "/a.c" 5]), (oneFile, .attach)] := by
  intro h
  have hlost : [changeAt "/a.c" 5] = [] := h.conserved
  cases hlost

end Cache

end LiveTables
