import LiveTables.Engine.Load
import LiveTables.Proofs.NameMapLookup

/-!
# Transactions

What is done inside a transaction is kept if all of it succeeds and undone otherwise, as long as it
leaves ending the transaction to the transaction itself. A transaction is not begun inside another
one.
-/

namespace LiveTables.Engine.Connection

open LiveTables.Sql LiveTables.Text

def traced (conn : Connection) (spans : List Span) : Connection :=
  { conn with trace := conn.trace ++ spans }

@[simp]
theorem traced_nil (conn : Connection) : conn.traced [] = conn := by
  simp [traced]

@[simp]
theorem traced_traced (conn : Connection) (first second : List Span) :
    (conn.traced first).traced second = conn.traced (first ++ second) := by
  simp [traced]

theorem record_eq_traced (conn : Connection) (span : Span) :
    conn.record span = conn.traced [span] := rfl

@[simp]
theorem contents_traced (conn : Connection) (spans : List Span) :
    (conn.traced spans).contents = conn.contents := rfl

@[simp]
theorem refusals_traced (conn : Connection) (spans : List Span) :
    (conn.traced spans).refusals = conn.refusals := rfl

/-- The connection with a transaction open, in which statements see `store`. -/
def within (conn : Connection) (store : Store) : Connection := { conn with working := some store }

theorem contents_within (conn : Connection) (store : Store) :
    (conn.within store).contents = store :=
  rfl

theorem refusals_within (conn : Connection) (store : Store) :
    (conn.within store).refusals = conn.refusals :=
  rfl

theorem within_setContents (conn : Connection) (store changed : Store) :
    (conn.within store).setContents changed = conn.within changed := rfl

theorem within_traced (conn : Connection) (store : Store) (spans : List Span) :
    (conn.within store).traced spans = (conn.traced spans).within store := rfl

theorem setContents_contents (conn : Connection) : conn.setContents conn.contents = conn := by
  obtain ⟨committed, working, trace, file, refusals⟩ := conn
  cases working <;> rfl

@[simp]
theorem contents_setContents (conn : Connection) (store : Store) :
    (conn.setContents store).contents = store := by
  unfold setContents
  cases conn.working <;> simp [contents]

@[simp]
theorem refusals_setContents (conn : Connection) (store : Store) :
    (conn.setContents store).refusals = conn.refusals := by
  unfold setContents
  cases conn.working <;> rfl

theorem setContents_setContents (conn : Connection) (first second : Store) :
    (conn.setContents first).setContents second = conn.setContents second := by
  obtain ⟨committed, working, trace, file, refusals⟩ := conn
  cases working <;> rfl

theorem setContents_traced (conn : Connection) (store : Store) (spans : List Span) :
    (conn.setContents store).traced spans = (conn.traced spans).setContents store := by
  obtain ⟨committed, working, trace, file, refusals⟩ := conn
  cases working <;> rfl

section Transaction

variable {α : Type} {conn after : Connection}
  {body : Connection → Except EngineError α × Connection}

theorem transaction_of_open (hopen : conn.working.isSome = true) :
    conn.transaction body = (.error (.rejected .transactionOpen), conn) := by
  obtain ⟨store, hstore⟩ := Option.isSome_iff_exists.1 hopen
  simp [transaction, begin, hstore]

theorem transaction_of_ok (hclosed : conn.working = none) {value : α} {store : Store}
    (hbody : body (conn.within conn.committed) = (.ok value, after))
    (hafter : after.working = some store) :
    conn.transaction body = (.ok value, { after with committed := store, working := none }) := by
  rw [within] at hbody
  simp [transaction, begin, hclosed, hbody, commit, hafter]

theorem transaction_of_error (hclosed : conn.working = none) {cause : EngineError} {store : Store}
    (hbody : body (conn.within conn.committed) = (.error cause, after))
    (hafter : after.working = some store) :
    conn.transaction body = (.error cause, { after with working := none }) := by
  rw [within] at hbody
  simp [transaction, begin, hclosed, hbody, rollback, hafter]

/-- A body that has ended the transaction has its success refused and its failure reported with the
broken transaction. -/
theorem transaction_of_ended {outcome : Except EngineError α} (hclosed : conn.working = none)
    (hbody : body (conn.within conn.committed) = (outcome, after)) (hafter : after.working = none) :
    conn.transaction body = (match outcome with
      | .ok _ => .error (.rejected .noTransaction)
      | .error cause => .error (.brokenTransaction cause .noTransaction), after) := by
  rw [within] at hbody
  cases outcome <;> simp [transaction, begin, hclosed, hbody, commit, rollback, hafter]

/-- A transaction that has been begun is not open afterwards, whatever its body does. -/
theorem isSome_working_transaction (conn : Connection)
    (body : Connection → Except EngineError α × Connection) :
    (conn.transaction body).2.working.isSome = conn.working.isSome := by
  cases hworking : conn.working with
  | some store => rw [transaction_of_open (by simp [hworking]), hworking]
  | none =>
      cases hbody : body (conn.within conn.committed) with
      | mk outcome after =>
          cases hafter : after.working with
          | none => simp [transaction_of_ended hworking hbody hafter, hafter]
          | some store =>
              cases outcome with
              | ok value => simp [transaction_of_ok hworking hbody hafter]
              | error cause => simp [transaction_of_error hworking hbody hafter]

end Transaction

/-! ### Bodies that leave the transaction alone -/

section Bodies

variable {α β : Type}

/-- Done inside a transaction, the body leaves it open and does not touch what is committed. -/
def KeepsTransaction (body : Connection → Except EngineError α × Connection) : Prop :=
  ∀ conn : Connection, conn.working.isSome = true →
    (body conn).2.working.isSome = true ∧ (body conn).2.committed = conn.committed

/-- The outcome, the contents afterwards and the trace are decided by the contents before and by
what the engine refuses. -/
def ActsOnContents (body : Connection → Except EngineError α × Connection) : Prop :=
  ∀ refusals store, ∃ outcome changed spans, ∀ conn : Connection,
    conn.refusals = refusals → conn.contents = store →
      body conn = (outcome, (conn.traced spans).setContents changed)

/-- Such a body is undone if it fails, and otherwise what it leaves is committed. -/
theorem transaction_of_keepsTransaction {conn : Connection}
    {body : Connection → Except EngineError α × Connection} (hbody : KeepsTransaction body)
    (hclosed : conn.working = none) :
    (conn.transaction body).1 = (body (conn.within conn.committed)).1 ∧
      (conn.transaction body).2.committed = match (body (conn.within conn.committed)).1 with
        | .ok _ => (body (conn.within conn.committed)).2.contents
        | .error _ => conn.committed := by
  obtain ⟨hopen, hcommitted⟩ := hbody (conn.within conn.committed) rfl
  cases houtcome : body (conn.within conn.committed) with
  | mk outcome after =>
      simp only [houtcome] at hopen hcommitted
      obtain ⟨store, hstore⟩ := Option.isSome_iff_exists.1 hopen
      cases outcome with
      | ok value =>
          rw [transaction_of_ok hclosed houtcome hstore]
          exact ⟨rfl, by simp [contents, hstore]⟩
      | error cause =>
          rw [transaction_of_error hclosed houtcome hstore]
          exact ⟨rfl, hcommitted⟩

theorem ActsOnContents.keepsTransaction
    {body : Connection → Except EngineError α × Connection} (h : ActsOnContents body) :
    KeepsTransaction body := by
  intro conn hopen
  obtain ⟨store, hstore⟩ := Option.isSome_iff_exists.1 hopen
  obtain ⟨outcome, changed, spans, hbody⟩ := h conn.refusals conn.contents
  have hworking : (conn.traced spans).working = some store := hstore
  rw [hbody conn rfl rfl]
  simp only [setContents, hworking]
  exact ⟨rfl, rfl⟩

/-- A body that acts on the contents does in a transaction what it does without one. -/
theorem transaction_of_actsOnContents {conn : Connection}
    {body : Connection → Except EngineError α × Connection} (hbody : ActsOnContents body)
    (hclosed : conn.working = none) :
    (conn.transaction body).1 = (body conn).1 ∧ (conn.transaction body).2.committed =
      match (body conn).1 with
      | .ok _ => (body conn).2.committed
      | .error _ => conn.committed := by
  obtain ⟨outcome, changed, spans, hacts⟩ := hbody conn.refusals conn.committed
  have hcontents : conn.contents = conn.committed := by simp [contents, hclosed]
  have hcommitted : ((conn.traced spans).setContents changed).committed = changed := by
    simp [setContents, traced, hclosed]
  have hwithin : body (conn.within conn.committed) = (outcome, _) := hacts _ rfl rfl
  have htransaction := transaction_of_keepsTransaction hbody.keepsTransaction hclosed
  rw [hwithin, contents_setContents] at htransaction
  rwa [hacts conn rfl hcontents, hcommitted]

theorem ActsOnContents.of_eq {body other : Connection → Except EngineError α × Connection}
    (h : ActsOnContents body) (heq : ∀ conn, other conn = body conn) : ActsOnContents other :=
  funext heq ▸ h

theorem actsOnContents_const (outcome : Except EngineError α) :
    ActsOnContents fun conn => (outcome, conn) := by
  intro refusals store
  refine ⟨outcome, store, [], fun conn _ hconn => ?_⟩
  rw [traced_nil, ← hconn, setContents_contents]

theorem ActsOnContents.record {body : Connection → Except EngineError α × Connection}
    (h : ActsOnContents body) (span : Span) :
    ActsOnContents fun conn => body (conn.record span) := by
  intro refusals store
  obtain ⟨outcome, changed, spans, hbody⟩ := h refusals store
  refine ⟨outcome, changed, span :: spans, fun conn hrefusals hconn => ?_⟩
  simp only [hbody (conn.record span) hrefusals hconn]
  rw [record_eq_traced, traced_traced, List.singleton_append]

theorem ActsOnContents.andThen {first : Connection → Except EngineError α × Connection}
    {next : Except EngineError α → Connection → Except EngineError β × Connection}
    (hfirst : ActsOnContents first) (hnext : ∀ outcome, ActsOnContents (next outcome)) :
    ActsOnContents fun conn => next (first conn).1 (first conn).2 := by
  intro refusals store
  obtain ⟨outcome, changed, spans, hbody⟩ := hfirst refusals store
  -- the second part is met with the contents that the first has left
  obtain ⟨outcome', changed', spans', hbody'⟩ := hnext outcome refusals changed
  refine ⟨outcome', changed', spans ++ spans', fun conn hrefusals hconn => ?_⟩
  simp only [hbody conn hrefusals hconn]
  have hsame : ((conn.traced spans).setContents changed).refusals = refusals := by
    rw [refusals_setContents, refusals_traced, hrefusals]
  rw [hbody' _ hsame (contents_setContents _ _), setContents_traced, traced_traced,
    setContents_setContents]

/-- A step that may fail, and may then have changed the contents all the same. -/
theorem actsOnContents_step (step : Refusals → Store → Except EngineError α × Store) :
    ActsOnContents fun conn =>
      ((step conn.refusals conn.contents).1,
        conn.setContents (step conn.refusals conn.contents).2) := by
  intro refusals store
  refine ⟨(step refusals store).1, (step refusals store).2, [], fun conn hrefusals hconn => ?_⟩
  simp only [hrefusals, hconn, traced_nil]

theorem actsOnContents_change (change : Refusals → Store → Except Rejection Store)
    (accepted : Except EngineError α) :
    ActsOnContents fun conn => match change conn.refusals conn.contents with
      | .ok store => (accepted, conn.setContents store)
      | .error cause => (.error (.rejected cause), conn) := by
  let step (refusals : Refusals) (store : Store) : Except EngineError α × Store :=
    match change refusals store with
    | .ok changed => (accepted, changed)
    | .error cause => (.error (.rejected cause), store)
  refine (actsOnContents_step step).of_eq fun conn => ?_
  cases hchange : change conn.refusals conn.contents with
  | ok store => simp only [step, hchange]
  | error cause => simp only [step, hchange, setContents_contents]

end Bodies

/-! ### Single statements -/

/-- A statement that does not begin or end a transaction. -/
def IsPlain : Statement → Prop
  | .begin | .commit | .rollback => False
  | _ => True

theorem run_of_isPlain (conn : Connection) (values : List Value) {statement : Statement}
    (h : IsPlain statement) : conn.run values statement =
      (attempt conn.refusals conn.contents values statement).map conn.setContents := by
  cases statement <;> first | rfl | exact h.elim

theorem runBatch_of_ok (conn : Connection) {text : String} {statement : Statement} {store : Store}
    (htext : readText text = .ok [statement]) (hplain : IsPlain statement)
    (hattempt : attempt conn.refusals conn.contents [] statement = .ok store) :
    conn.runBatch text = (.ok (), (conn.traced [.statement .batch text]).setContents store) := by
  simp [runBatch, record_eq_traced, htext, runAll, run_of_isPlain _ _ hplain, hattempt, Except.map,
    Except.mapError]

theorem runBatch_of_error (conn : Connection) {text : String} {statement : Statement}
    {cause : Rejection} (htext : readText text = .ok [statement]) (hplain : IsPlain statement)
    (hattempt : attempt conn.refusals conn.contents [] statement = .error cause) :
    conn.runBatch text = (.error (.rejected cause), conn.traced [.statement .batch text]) := by
  simp [runBatch, record_eq_traced, htext, runAll, run_of_isPlain _ _ hplain, hattempt, Except.map,
    Except.mapError]

/-- A query of a whole relation answers with its labels and rows as statements see them. -/
theorem answer_allColumns {conn : Connection} {text name : String} {relation : Relation}
    (htext : readText text = .ok [.select (.allColumns name)])
    (hrelation : conn.contents.find? (lower name) = some relation) :
    conn.answer text [] = .ok ⟨relation.labels, relation.rows⟩ := by
  have hfound : conn.contents.relation name = .ok relation := by
    simp [Store.relation, hrelation]
  simp [answer, htext, Store.answer, hfound, bind, Except.bind]

theorem query_allColumns {conn : Connection} {text name : String} {relation : Relation}
    (htext : readText text = .ok [.select (.allColumns name)])
    (hrelation : conn.contents.find? (lower name) = some relation) :
    (conn.query text []).1 = .ok ⟨relation.labels, relation.rows⟩ := by
  rw [query, answer_allColumns htext hrelation]
  rfl

end LiveTables.Engine.Connection
