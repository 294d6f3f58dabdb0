import LiveTables.Engine.Task
import LiveTables.Proofs.BulkLoading

/-!
# Bodies of transactions

A transaction keeps what its body does or undoes it as a whole, if the body neither begins nor ends
a transaction by itself. A transaction is closed afterwards whatever its body does, and it finds
itself broken exactly if the body has ended it and then failed.
-/

namespace LiveTables.Engine

open LiveTables.Sql

namespace Connection

/-! ### Plain texts -/

theorem isPlain_of_readInsert {tokens : List Token} {statement : Statement}
    (h : readInsert tokens = some statement) : IsPlain statement := by
  simp only [readInsert, Option.bind_eq_bind, Option.bind_eq_some_iff] at h
  obtain ⟨rest, _, h⟩ := h
  split at h
  · simp only [Option.bind_eq_some_iff] at h
    obtain ⟨_, _, _, _, h⟩ := h
    split at h
    · simp only [Option.bind_eq_some_iff, Option.some.injEq] at h
      obtain ⟨_, _, _, _, rfl⟩ := h
      trivial
    · cases h
  · simp only [Option.bind_eq_some_iff] at h
    obtain ⟨_, _, h⟩ := h
    split at h
    · simp only [Option.bind_eq_some_iff, Option.some.injEq] at h
      obtain ⟨_, _, _, _, rfl⟩ := h
      trivial
    · cases h
  · cases h

theorem isPlain_of_readDrop {tokens : List Token} {statement : Statement}
    (h : readDrop tokens = some statement) : IsPlain statement := by
  unfold readDrop at h
  split at h
  · obtain ⟨_, _, rfl⟩ := Option.map_eq_some_iff.1 h
    trivial
  · cases h
  · split at h
    · obtain ⟨_, _, rfl⟩ := Option.map_eq_some_iff.1 h
      trivial
    · cases h

theorem isPlain_of_readCreate {tokens : List Token} {statement : Statement}
    (h : readCreate tokens = some statement) : IsPlain statement := by
  unfold readCreate at h
  split at h
  · simp only [Option.bind_eq_bind, Option.bind_eq_some_iff, Option.some.injEq] at h
    obtain ⟨_, _, _, _, rfl⟩ := h
    trivial
  · cases h
  · split at h
    · simp only [Option.bind_eq_bind, Option.bind_eq_some_iff, Option.some.injEq] at h
      obtain ⟨_, _, _, _, _, _, rfl⟩ := h
      trivial
    · cases h

theorem readTransaction_eq_none {part : List Token}
    (h : ∀ token ∈ part.head?, readTransactionWord token = none) : readTransaction part = none := by
  unfold readTransaction
  split
  · exact h _ rfl
  · rw [h _ rfl, ite_self]
  · rfl

theorem isPlain_of_readStatement {part : List Token} {statement : Statement}
    (hword : ∀ token ∈ part.head?, readTransactionWord token = none)
    (h : readStatement part = some statement) : IsPlain statement := by
  rw [readStatement, readTransaction_eq_none hword, Option.none_or] at h
  simp only [Option.or_eq_some_iff] at h
  rcases h with h | ⟨_, h | ⟨_, h | ⟨_, h⟩⟩⟩
  · obtain ⟨_, _, rfl⟩ := Option.map_eq_some_iff.1 h
    trivial
  · exact isPlain_of_readInsert h
  · exact isPlain_of_readDrop h
  · exact isPlain_of_readCreate h

/-- A text in which no statement begins with a word that begins or ends a transaction, whether or
not the statements are ones that can be run. -/
def IsPlainText (text : String) : Prop :=
  ∃ found, tokens text.toList = some found ∧
    ∀ part ∈ splitStatements [] found, ∀ token ∈ part.head?, readTransactionWord token = none

theorem exists_of_mapM_eq_some {α β : Type} {f : α → Option β} {xs : List α} {ys : List β}
    (h : xs.mapM f = some ys) {y : β} (hy : y ∈ ys) : ∃ x ∈ xs, f x = some y := by
  induction xs generalizing ys with
  | nil =>
      obtain rfl : [] = ys := by simpa using h
      cases hy
  | cons x rest ih =>
      simp only [List.mapM_cons, Option.bind_eq_bind, Option.bind_eq_some_iff, Option.pure_def,
        Option.some.injEq] at h
      obtain ⟨first, hfirst, others, hothers, rfl⟩ := h
      rcases List.mem_cons.1 hy with rfl | hmem
      · exact ⟨x, List.mem_cons_self, hfirst⟩
      · obtain ⟨other, hother, hvalue⟩ := ih hothers hmem
        exact ⟨other, List.mem_cons_of_mem _ hother, hvalue⟩

theorem isPlain_of_isPlainText {text : String} (h : IsPlainText text) {statements : List Statement}
    (htext : readText text = .ok statements) : ∀ statement ∈ statements, IsPlain statement := by
  intro statement hstatement
  obtain ⟨found, hfound, hparts⟩ := h
  have hread : (splitStatements [] found).mapM readStatement = some statements := by
    unfold readText at htext
    split_ifs at htext
    cases hstatements : readStatements text with
    | none => simp [hstatements] at htext
    | some others =>
        simp only [hstatements] at htext
        split_ifs at htext
        cases htext
        simpa [readStatements, hfound] using hstatements
  obtain ⟨part, hpart, hpartRead⟩ := exists_of_mapM_eq_some hread hstatement
  exact isPlain_of_readStatement (hparts part hpart) hpartRead

theorem actsOnContents_runAll {statements : List Statement}
    (h : ∀ statement ∈ statements, IsPlain statement) :
    ActsOnContents fun conn =>
      ((conn.runAll statements).1.mapError EngineError.rejected, (conn.runAll statements).2) := by
  induction statements with
  | nil => exact actsOnContents_const (.ok ())
  | cons statement rest ih =>
      have hstatement := h statement List.mem_cons_self
      have hrest := ih fun other hother => h other (List.mem_cons_of_mem _ hother)
      have hfirst := actsOnContents_change
        (fun refusals store => attempt refusals store [] statement) (Except.ok ())
      let next : Except EngineError Unit → Connection → Except EngineError Unit × Connection
        | .error cause, conn => (.error cause, conn)
        | .ok _, conn => ((conn.runAll rest).1.mapError .rejected, (conn.runAll rest).2)
      have hnext : ∀ outcome, ActsOnContents (next outcome)
        | .error cause => actsOnContents_const (.error cause)
        | .ok _ => hrest
      refine (hfirst.andThen hnext).of_eq fun conn => ?_
      simp only [runAll, run_of_isPlain conn [] hstatement]
      cases attempt conn.refusals conn.contents [] statement <;> rfl

theorem actsOnContents_runBatch {text : String} (h : IsPlainText text) :
    ActsOnContents (·.runBatch text) := by
  cases htext : readText text with
  | error cause =>
      have hnothing := actsOnContents_const (α := Unit) (.error (.rejected cause))
      refine (hnothing.record (.statement .batch text)).of_eq fun conn => ?_
      simp only [runBatch, htext]
  | ok statements =>
      have hall := actsOnContents_runAll (isPlain_of_isPlainText h htext)
      refine (hall.record (.statement .batch text)).of_eq fun conn => ?_
      simp only [runBatch, htext]

/-! ### Bodies -/

/-- Bodies without a statement that begins or ends a transaction. What follows a step can look at
the step's outcome, and need not stop at a failure. -/
inductive PlainBody :
    {α : Type} → (Connection → Except EngineError α × Connection) → Prop where
  /-- The body's own outcome, which can be any failure. -/
  | outcome {α : Type} (outcome : Except EngineError α) : PlainBody fun conn => (outcome, conn)
  | text {text : String} (h : IsPlainText text) : PlainBody (·.runBatch text)
  | load (table : String) (listed : List String) (rows : List (List Value)) :
      PlainBody (·.load table listed rows)
  /-- Any other statement: nothing is known of it but that it sees and changes the contents. -/
  | step {α : Type} (span : Span) (step : Refusals → Store → Except EngineError α × Store) :
      PlainBody fun conn => ((step conn.refusals conn.contents).1,
        (conn.record span).setContents (step conn.refusals conn.contents).2)
  | andThen {α β : Type} {first : Connection → Except EngineError α × Connection}
      {next : Except EngineError α → Connection → Except EngineError β × Connection}
      (hfirst : PlainBody first) (hnext : ∀ outcome, PlainBody (next outcome)) :
      PlainBody fun conn => next (first conn).1 (first conn).2

theorem PlainBody.actsOnContents {α : Type} {body : Connection → Except EngineError α × Connection}
    (h : PlainBody body) : ActsOnContents body := by
  induction h with
  | outcome outcome => exact actsOnContents_const outcome
  | text h => exact actsOnContents_runBatch h
  | load table listed rows => exact actsOnContents_load table listed rows
  | step span step => exact (actsOnContents_step step).record span
  | andThen _ _ hfirst hnext => exact hfirst.andThen hnext

/-- The cases are who closes the transaction: the body itself, or what comes behind it. -/
theorem transaction_eq_broken_iff {α : Type} {conn : Connection}
    {body : Connection → Except EngineError α × Connection} {cause : EngineError}
    {rejection : Rejection} :
    (conn.transaction body).1 = .error (.brokenTransaction cause rejection) ↔
      conn.working = none ∧
        ((body (conn.within conn.committed)).2.working = none ∧
            (body (conn.within conn.committed)).1 = .error cause ∧ rejection = .noTransaction ∨
          (body (conn.within conn.committed)).2.working ≠ none ∧
            (body (conn.within conn.committed)).1 =
              .error (.brokenTransaction cause rejection)) := by
  cases hworking : conn.working with
  | some store =>
      have hopen : conn.working.isSome = true := by simp [hworking]
      simp [transaction_of_open hopen]
  | none =>
      cases hbody : body (conn.within conn.committed) with
      | mk outcome after =>
          cases hafter : after.working with
          | none =>
              rw [transaction_of_ended hworking hbody hafter]
              cases outcome <;> simp [eq_comm]
          | some store =>
              cases outcome with
              | ok value => simp [transaction_of_ok hworking hbody hafter]
              | error own => simp [transaction_of_error hworking hbody hafter]

/-- What a transaction around a body promises. -/
structure Transactional {α : Type} (conn : Connection)
    (body : Connection → Except EngineError α × Connection) : Prop where
  /-- A body that leaves the transaction alone gives the transaction its outcome. -/
  outcome : conn.working = none → KeepsTransaction body →
    (conn.transaction body).1 = (body (conn.within conn.committed)).1
  kept : conn.working = none → KeepsTransaction body → ∀ value,
    (conn.transaction body).1 = .ok value →
      (conn.transaction body).2.committed = (body (conn.within conn.committed)).2.contents
  undone : conn.working = none → KeepsTransaction body → ∀ cause,
    (conn.transaction body).1 = .error cause →
      (conn.transaction body).2.committed = conn.committed
  /-- A body without a statement that begins or ends a transaction leaves the transaction alone, and
  succeeds or fails with what it does when it is run without one. -/
  plain : PlainBody body → KeepsTransaction body ∧
    (conn.working = none → (conn.transaction body).1 = (body conn).1 ∧
      ∀ value, (body conn).1 = .ok value →
        (conn.transaction body).2.committed = (body conn).2.committed)
  /-- Whatever the body is, a transaction is open afterwards exactly if one was before. -/
  closes : (conn.transaction body).2.working.isSome = conn.working.isSome
  /-- Inside another transaction nothing of the body is done. -/
  refuses : conn.working ≠ none →
    conn.transaction body = (.error (.rejected .transactionOpen), conn)
  /-- A broken transaction is reported exactly if the body has ended it and then failed, or if the
  body's own failure says so. -/
  broken : ∀ cause rejection,
    (conn.transaction body).1 = .error (.brokenTransaction cause rejection) ↔
      conn.working = none ∧
        ((body (conn.within conn.committed)).2.working = none ∧
            (body (conn.within conn.committed)).1 = .error cause ∧ rejection = .noTransaction ∨
          (body (conn.within conn.committed)).2.working ≠ none ∧
            (body (conn.within conn.committed)).1 = .error (.brokenTransaction cause rejection))

/-- Whatever the body of a transaction is, the transaction is closed behind it, and what a body does
that leaves the transaction alone is kept or undone as a whole. -/
theorem transactional_of_any_body {α : Type} (conn : Connection)
    (body : Connection → Except EngineError α × Connection) : Transactional conn body := by
  refine ⟨?_, ?_, ?_, ?_, isSome_working_transaction conn body, ?_, ?_⟩
  · intro hclosed hkeeps
    exact (transaction_of_keepsTransaction hkeeps hclosed).1
  · intro hclosed hkeeps value hvalue
    obtain ⟨houtcome, hcommitted⟩ := transaction_of_keepsTransaction hkeeps hclosed
    rwa [← houtcome, hvalue] at hcommitted
  · intro hclosed hkeeps cause hcause
    obtain ⟨houtcome, hcommitted⟩ := transaction_of_keepsTransaction hkeeps hclosed
    rwa [← houtcome, hcause] at hcommitted
  · intro hplain
    refine ⟨hplain.actsOnContents.keepsTransaction, fun hclosed => ?_⟩
    obtain ⟨houtcome, hcommitted⟩ := transaction_of_actsOnContents hplain.actsOnContents hclosed
    refine ⟨houtcome, fun value hvalue => ?_⟩
    rwa [hvalue] at hcommitted
  · intro hopen
    exact transaction_of_open (Option.isSome_iff_ne_none.2 hopen)
  · intro cause rejection
    exact transaction_eq_broken_iff

/-! ### Tasks -/

/-- The text that a task runs as it is. The text of a load is made of the load's names. -/
def taskText? : Task → Option String
  | .create table columns => some (createAsWritten table columns)
  | .drop table => some ("DROP TABLE " ++ quote table)
  | .batch text => some text
  | .load .. => none
  | .fail _ => none

theorem plainBody_performText {text : String} (h : IsPlainText text) :
    PlainBody (·.performText text) :=
  (PlainBody.text h).andThen fun outcome => .outcome (outcome.map fun _ => none)

theorem plainBody_perform {task : Task} (h : ∀ text ∈ taskText? task, IsPlainText text) :
    PlainBody (·.perform task) := by
  cases task with
  | create table columns => exact plainBody_performText (h _ rfl)
  | drop table => exact plainBody_performText (h _ rfl)
  | batch text => exact plainBody_performText (h text rfl)
  | load table columns rows =>
      exact (PlainBody.load table columns rows).andThen fun outcome => .outcome (outcome.map some)
  | fail reason => exact .outcome _

theorem plainBody_performAll {tasks : List Task}
    (h : ∀ task ∈ tasks, ∀ text ∈ taskText? task, IsPlainText text) :
    PlainBody (·.performAll tasks) := by
  induction tasks with
  | nil => exact .outcome _
  | cons task rest ih =>
      have hrest := ih fun other hother => h other (List.mem_cons_of_mem _ hother)
      have hfirst := plainBody_perform (h task List.mem_cons_self)
      let next : Except EngineError (Option Nat) → Connection →
          Except EngineError (List (Option Nat)) × Connection
        | .error cause, conn => (.error cause, conn)
        | .ok result, conn =>
          ((conn.performAll rest).1.map (result :: ·), (conn.performAll rest).2)
      have hnext : ∀ outcome, PlainBody (next outcome)
        | .error cause => .outcome (.error cause)
        | .ok result => hrest.andThen fun outcome => .outcome (outcome.map (result :: ·))
      have hall : (·.performAll (task :: rest)) =
          fun conn => next (perform conn task).1 (perform conn task).2 := by
        funext conn
        simp only [performAll]
        cases hperform : conn.perform task with
        | mk outcome after => cases outcome <;> rfl
      rw [hall]
      exact hfirst.andThen hnext

theorem kind_of_performText {conn : Connection} {text : String} {cause : EngineError}
    (h : (conn.performText text).1 = .error cause) : cause.kind = .store := by
  simp only [performText, runBatch] at h
  cases htext : readText text with
  | error rejection =>
      simp only [htext] at h
      cases h
      rfl
  | ok statements =>
      simp only [htext] at h
      cases hall : (runAll (conn.record (.statement .batch text)) statements).1 with
      | error rejection =>
          simp only [hall] at h
          cases h
          rfl
      | ok _ =>
          simp only [hall] at h
          cases h

theorem kind_of_append {conn : Connection} {table : String} {rows : List (List Value)}
    {cause : EngineError} (h : (conn.append table rows).1 = .error cause) :
    cause.kind = .store := by
  simp only [append] at h
  cases hrows : (appendTo (conn.record (.load table rows.length)).refusals
      (conn.record (.load table rows.length)).contents table rows).1 with
  | ok _ =>
      rw [hrows] at h
      cases h
  | error rejection =>
      rw [hrows] at h
      cases h
      rfl

theorem kind_of_insertBound {conn : Connection} {table : String} {columns : List String}
    {rows : List (List Value)} {cause : EngineError}
    (h : (conn.insertBound table columns rows).1 = .error cause) : cause.kind = .store := by
  simp only [insertBound] at h
  split at h
  · split at h
    · cases h
    · cases h
      rfl
  · cases h
    rfl
  · cases h
    rfl

theorem kind_of_load {conn : Connection} {table : String} {columns : List String}
    {rows : List (List Value)} {cause : EngineError}
    (h : (conn.load table columns rows).1 = .error cause) :
    cause.kind = .store ∨ cause.kind = .invalidInput := by
  unfold load at h
  split at h
  · cases h
  split at h
  · cases h
    exact Or.inr rfl
  split at h
  · cases h
    exact Or.inr rfl
  split at h
  · exact Or.inl (kind_of_append h)
  · exact Or.inl (kind_of_insertBound h)

/-- No task reports a broken transaction: that is for the transaction around it to do. -/
theorem kind_of_perform {conn : Connection} {task : Task} {cause : EngineError}
    (h : (conn.perform task).1 = .error cause) : cause.kind ≠ .transaction := by
  cases task with
  | create table columns => simp [kind_of_performText h]
  | drop table => simp [kind_of_performText h]
  | batch text => simp [kind_of_performText h]
  | load table columns rows =>
      have hload : (conn.load table columns rows).1 = .error cause := by
        simp only [perform] at h
        cases hload : (conn.load table columns rows).1 <;> simp_all [Except.map]
      rcases kind_of_load hload with hkind | hkind <;> simp [hkind]
  | fail reason =>
      cases h
      simp [EngineError.kind]

theorem kind_of_performAll {conn : Connection} {tasks : List Task} {cause : EngineError}
    (h : (conn.performAll tasks).1 = .error cause) : cause.kind ≠ .transaction := by
  induction tasks generalizing conn with
  | nil => cases h
  | cons task rest ih =>
      simp only [performAll] at h
      cases hperform : conn.perform task with
      | mk outcome after =>
          rw [hperform] at h
          cases outcome with
          | error first =>
              cases h
              exact kind_of_perform (by rw [hperform])
          | ok result =>
              cases hrest : (after.performAll rest).1 with
              | error other =>
                  simp only [hrest, Except.map, Except.error.injEq] at h
                  exact ih (h ▸ hrest)
              | ok results => simp [hrest, Except.map] at h

/-- Around tasks a broken transaction is reported exactly if they have ended it and then failed. -/
theorem performAll_eq_broken_iff {conn : Connection} {tasks : List Task} {cause : EngineError}
    {rejection : Rejection} :
    (conn.transaction (·.performAll tasks)).1 = .error (.brokenTransaction cause rejection) ↔
      conn.working = none ∧ ((conn.within conn.committed).performAll tasks).2.working = none ∧
        ((conn.within conn.committed).performAll tasks).1 = .error cause ∧
          rejection = .noTransaction := by
  rw [transaction_eq_broken_iff]
  refine and_congr_right fun _ => or_iff_left ?_
  rintro ⟨_, hown⟩
  exact kind_of_performAll hown rfl

end Connection

end LiveTables.Engine
