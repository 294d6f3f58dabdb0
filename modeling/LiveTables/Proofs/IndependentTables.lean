import LiveTables.Proofs.RefreshIsolation

/-!
# Independent tables

To take note of a change or to load a table is to look at one table and to leave all others as they
are. So what is done for different tables can be done in any order: each gives the answer that it
would give alone, and what is left differs in the trace at most.
-/

namespace LiveTables

open LiveTables.Engine LiveTables.Files LiveTables.Sql LiveTables.Table LiveTables.Text
open LiveTables.Watch

namespace Cache

/-! ### Works -/

/-- What is done for one table: a change is taken note of, or the table of a name is loaded if it is
dirty. -/
inductive Work where
  | change (change : Change)
  | refresh (name : String)

inductive Reply where
  | noted (outcome : Except Failure ChangeOutcome)
  | loaded (report : Report)

def perform (cache : Cache) (tree : Tree) : Work → Reply × Cache
  | .change change => (cache.handleChange tree change).map .noted id
  | .refresh name => (cache.ensureFresh tree [name]).map .loaded id

theorem perform_change (cache : Cache) (tree : Tree) (change : Change) :
    cache.perform tree (.change change) =
      (.noted (cache.handleChange tree change).1, (cache.handleChange tree change).2) :=
  Prod.ext (Prod.map_fst Reply.noted id _) (Prod.map_snd Reply.noted id _)

theorem perform_refresh (cache : Cache) (tree : Tree) (name : String) :
    cache.perform tree (.refresh name) =
      (.loaded (cache.refreshEach tree [name]).1, (cache.refreshEach tree [name]).2) :=
  Prod.ext (Prod.map_fst Reply.loaded id _) (Prod.map_snd Reply.loaded id _)

/-- The key of the table that a work is about. A change whose file name makes no table name is about
none. -/
def Work.key? (extension : String) : Work → Option String
  | .change noted => keyOf? extension noted
  | .refresh name => some (lower name)

/-- Works about different tables. -/
def Work.Apart (extension : String) (first second : Work) : Prop :=
  ∀ key, first.key? extension = some key → second.key? extension ≠ some key

/-! ### What works leave alone -/

/-- What a work leaves of a cache beside the table that it is about. Nothing is committed while a
transaction is open. -/
structure Held (cache after : Cache) : Prop extends Frame cache after where
  file : after.connection.file = cache.connection.file
  committed : cache.connection.working.isSome = true →
    after.connection.committed = cache.connection.committed

theorem Held.refl (cache : Cache) : Held cache cache := ⟨Frame.refl cache, rfl, fun _ => rfl⟩

theorem Held.trans {first second third : Cache} (h : Held first second) (h' : Held second third) :
    Held first third where
  toFrame := h.toFrame.trans h'.toFrame
  file := h'.file.trans h.file
  committed hopen := by
    have hopen' : second.connection.working.isSome = true := by rwa [h.working]
    exact (h'.committed hopen').trans (h.committed hopen)

theorem held_traced (cache : Cache) {spans : List Span} (hquiet : Quiet spans) :
    Held cache (cache.traced spans) := ⟨frame_traced cache hquiet, rfl, fun _ => rfl⟩

theorem held_withMark (cache : Cache) (key : String) (entry : Entry) (path : String) :
    Held cache (cache.withMark key entry path) :=
  ⟨⟨rfl, rfl, rfl, rfl, rfl, rfl, [], quiet_nil, by simp [withMark]⟩, rfl, fun _ => rfl⟩

theorem held_withEntry (cache : Cache) (entry : Entry) (rows : List (List Value))
    {spans : List Span} (hquiet : Quiet spans) (hclosed : cache.connection.working = none) :
    Held cache (cache.withEntry entry rows spans) where
  toFrame := frame_withEntry cache entry rows hquiet
  file := rfl
  committed hopen := by
    rw [hclosed] at hopen
    cases hopen

theorem held_handleChange (cache : Cache) (tree : Tree) (change : Change) :
    Held cache (cache.handleChange tree change).2 := by
  rcases handleChange_cases cache tree change with ⟨spans, hquiet, hafter, _⟩ |
    ⟨key, entry, _, _, hafter⟩ | ⟨table, _, _, _, _, haccepts, hafter⟩
  · rw [hafter]
    exact held_traced cache hquiet
  · rw [hafter]
    exact held_withMark cache key entry change.path
  · rw [hafter]
    exact held_withEntry cache ⟨table, change.path⟩ [] (quiet_recreateSpans table)
      (working_of_refusal?_eq_none haccepts)

theorem held_reload {cache : Cache} (hcache : cache.WellFormed) (tree : Tree) (name : String) :
    Held cache (cache.reload tree name).2 := by
  cases hentry : cache.entries.find? (lower name) with
  | none =>
      rw [reload_of_unknown hentry]
      exact Held.refl cache
  | some entry =>
      rcases reload_cases hcache tree hentry with
        ⟨failure, spans, _, hquiet, hreload⟩ | ⟨table, batch, hloads, _, _, hreload⟩
      · rw [hreload]
        exact held_traced cache hquiet
      · rw [hreload]
        exact held_withEntry cache ⟨table.markClean, entry.path⟩ batch.rows
          (quiet_fillSpans table batch.rows)
          (working_of_refusal?_eq_none (loading_eq_ok_iff.1 hloads).2.2)

section Perform

variable {cache after : Cache}

theorem wellFormed_perform (hcache : cache.WellFormed) (tree : Tree) (work : Work) :
    (cache.perform tree work).2.WellFormed := by
  cases work with
  | change change =>
      rw [perform_change]
      exact wellFormed_handleChange hcache tree change
  | refresh name =>
      rw [perform_refresh]
      exact wellFormed_apply hcache tree (.refresh [name])

theorem held_perform (hcache : cache.WellFormed) (tree : Tree) (work : Work) :
    Held cache (cache.perform tree work).2 := by
  cases work with
  | change change =>
      rw [perform_change]
      exact held_handleChange cache tree change
  | refresh name =>
      rw [perform_refresh]
      have hboth := refreshEach_induction
        (motive := fun after => after.WellFormed ∧ Held cache after) tree (fun _ other h =>
          ⟨wellFormed_reload h.1 tree other, h.2.trans (held_reload h.1 tree other)⟩)
        ⟨hcache, Held.refl cache⟩ [name]
      exact hboth.2

theorem agreesAt_handleChange_of_ne {key : String} (cache : Cache) (tree : Tree) {change : Change}
    (hne : keyOf? cache.extension change ≠ some key) :
    AgreesAt key cache (cache.handleChange tree change).2 := by
  rcases handleChange_cases cache tree change with ⟨spans, _, hafter, _⟩ |
    ⟨marked, entry, hkey, _, hafter⟩ | ⟨table, hkey, _, _, _, _, hafter⟩
  · rw [hafter]
    exact agreesAt_traced key cache spans
  · rw [hafter]
    have hother : key ≠ marked := by
      rintro rfl
      exact hne hkey
    exact ⟨NameMap.find?_insert_of_ne _ hother _, rfl⟩
  · rw [hafter]
    have hother : key ≠ lower table.name := by
      rintro rfl
      exact hne hkey
    exact agreesAt_withEntry cache _ _ hother

/-- A work leaves the tables alone that it is not about. -/
theorem agreesAt_perform_of_ne (hcache : cache.WellFormed) (tree : Tree) {work : Work}
    {key : String} (hne : work.key? cache.extension ≠ some key) :
    AgreesAt key cache (cache.perform tree work).2 := by
  cases work with
  | change change =>
      rw [perform_change]
      exact agreesAt_handleChange_of_ne cache tree hne
  | refresh name =>
      rw [perform_refresh]
      have hidle : ∀ other ∈ [name], key = lower other → cache.isDirty other = false := by
        rintro other hother rfl
        obtain rfl := List.mem_singleton.1 hother
        exact absurd rfl hne
      exact (refreshEach_of_idle hcache tree hidle).1

/-! ### What works look at -/

theorem agreesAt_withEntry_self (hclosed : cache.connection.working = none)
    (hclosed' : after.connection.working = none) (entry : Entry) (rows : List (List Value))
    (spans spans' : List Span) : AgreesAt (lower entry.table.name)
      (cache.withEntry entry rows spans) (after.withEntry entry rows spans') where
  entry := by simp
  relation := by
    rw [withEntry_relation?_self cache entry rows spans hclosed,
      withEntry_relation?_self after entry rows spans' hclosed']

theorem handleChange_congr (hframe : Frame cache after) (tree : Tree) {change : Change}
    {name : String} (hname : nameFor? change.fileName cache.extension = some name)
    (hagrees : AgreesAt (lower name) cache after) :
    (after.handleChange tree change).1 = (cache.handleChange tree change).1 ∧
      AgreesAt (lower name) (cache.handleChange tree change).2
        (after.handleChange tree change).2 := by
  have hname' : nameFor? change.fileName after.extension = some name := hframe.extension ▸ hname
  cases hentry : cache.entries.find? (lower name) with
  | some entry =>
      rw [handleChange_of_known hname hentry,
        handleChange_of_known hname' (hagrees.entry.trans hentry)]
      exact ⟨rfl, by simp, hagrees.relation⟩
  | none =>
      have hidentifier := isIdentifier_of_nameFor? hname
      have hsampled : after.sampled tree name change.path =
          cache.sampled tree name change.path := by
        rw [sampled, sampled, hframe.format]
      rw [handleChange_of_unknown hname hentry,
        handleChange_of_unknown hname' (hagrees.entry.trans hentry), register_eq hidentifier,
        register_eq hidentifier, hsampled]
      cases hfile : cache.sampled tree name change.path with
      | error failure => exact ⟨rfl, hagrees⟩
      | ok found =>
          cases found with
          | none => exact ⟨rfl, hagrees⟩
          | some table =>
              obtain ⟨_, rfl, _⟩ := sampled_table hidentifier hfile
              have hrefusal := refusal?_congr hframe hagrees []
              dsimp only
              rw [hrefusal]
              cases haccepts : refusal? cache.connection table [] with
              | some refused => exact ⟨rfl, hagrees.entry, hagrees.relation⟩
              | none =>
                  exact ⟨rfl, agreesAt_withEntry_self (working_of_refusal?_eq_none haccepts)
                    (working_of_refusal?_eq_none (hrefusal.trans haccepts))
                      ⟨table, change.path⟩ _ _ _⟩

theorem refreshEach_congr (hcache : cache.WellFormed) (hafter : after.WellFormed)
    (hframe : Frame cache after) (tree : Tree) {name : String}
    (hagrees : AgreesAt (lower name) cache after) :
    (after.refreshEach tree [name]).1 = (cache.refreshEach tree [name]).1 ∧
      AgreesAt (lower name) (cache.refreshEach tree [name]).2
        (after.refreshEach tree [name]).2 := by
  rw [← about_refreshEach_singleton after, ← about_refreshEach_singleton cache]
  rcases refreshEach_cases hcache tree [name] (lower name) with
    ⟨hidle, hkept, hreport⟩ | ⟨entry, hentry, hdirty, hload⟩
  · have hidle' : ∀ other ∈ [name], lower name = lower other → after.isDirty other = false := by
      intro other hother hsame
      rw [isDirty_congr (hsame ▸ hagrees)]
      exact hidle other hother hsame
    obtain ⟨hkept', hreport'⟩ := refreshEach_of_idle hafter tree hidle'
    exact ⟨hreport'.trans hreport.symm, hkept.symm.trans (hagrees.trans hkept')⟩
  · have hentry' := hagrees.entry.trans hentry
    obtain ⟨hkey, hformed⟩ := hcache _ entry hentry
    have hloading := loading_congr hframe tree hformed (hkey ▸ hagrees)
    rcases hload with ⟨failure, hfails⟩ | ⟨table, batch, first, spellings, hloads, hnames⟩
    · obtain ⟨hkept, hreport⟩ := refreshEach_of_failing hcache hentry hdirty hfails [name]
      obtain ⟨hkept', hreport'⟩ :=
        refreshEach_of_failing hafter hentry' hdirty (hloading.trans hfails) [name]
      exact ⟨hreport'.trans hreport.symm, hkept.symm.trans (hagrees.trans hkept')⟩
    · obtain ⟨hfound, hrelation, hreport⟩ :=
        refreshEach_of_loading hcache hentry hdirty hloads hnames
      obtain ⟨hfound', hrelation', hreport'⟩ :=
        refreshEach_of_loading hafter hentry' hdirty (hloading.trans hloads) hnames
      exact ⟨hreport'.trans hreport.symm, hfound'.trans hfound.symm,
        hrelation'.trans hrelation.symm⟩

/-- What a work answers and makes of the table that it is about is decided by that table. -/
theorem perform_congr (hcache : cache.WellFormed) (hafter : after.WellFormed)
    (hframe : Frame cache after) (tree : Tree) {work : Work}
    (hagrees : ∀ key, work.key? cache.extension = some key → AgreesAt key cache after) :
    (after.perform tree work).1 = (cache.perform tree work).1 ∧
      ∀ key, work.key? cache.extension = some key →
        AgreesAt key (cache.perform tree work).2 (after.perform tree work).2 := by
  cases work with
  | change change =>
      cases hname : nameFor? change.fileName cache.extension with
      | none =>
          have hname' : nameFor? change.fileName after.extension = none := hframe.extension ▸ hname
          have hkey : ∀ key, keyOf? cache.extension change ≠ some key := by simp [keyOf?, hname]
          rw [perform_change, perform_change, handleChange_of_unnamed hname,
            handleChange_of_unnamed hname']
          exact ⟨rfl, fun key hsome => absurd hsome (hkey key)⟩
      | some name =>
          have hkey := keyOf?_of_name hname
          obtain ⟨hreply, hchanged⟩ :=
            handleChange_congr hframe tree hname (hagrees (lower name) hkey)
          rw [perform_change, perform_change]
          refine ⟨congrArg Reply.noted hreply, fun key hsome => ?_⟩
          obtain rfl : lower name = key := Option.some.inj (hkey.symm.trans hsome)
          exact hchanged
  | refresh name =>
      obtain ⟨hreport, hloaded⟩ := refreshEach_congr hcache hafter hframe tree (hagrees _ rfl)
      rw [perform_refresh, perform_refresh]
      refine ⟨congrArg Reply.loaded hreport, fun key hsome => ?_⟩
      obtain rfl : lower name = key := Option.some.inj hsome
      exact hloaded

end Perform

/-! ### Lists of works -/

/-- Do works in order. -/
def performAll (cache : Cache) (tree : Tree) : List Work → List Reply × Cache
  | [] => ([], cache)
  | work :: rest =>
    let (reply, cache) := cache.perform tree work
    let (replies, cache) := cache.performAll tree rest
    (reply :: replies, cache)

theorem performAll_cons (cache : Cache) (tree : Tree) (work : Work) (rest : List Work) :
    cache.performAll tree (work :: rest) =
      ((cache.perform tree work).1 :: ((cache.perform tree work).2.performAll tree rest).1,
        ((cache.perform tree work).2.performAll tree rest).2) := rfl

theorem performAll_changes (cache : Cache) (tree : Tree) (changes : List Change) :
    (cache.performAll tree (changes.map .change)).2 = cache.handleChanges tree changes := by
  induction changes generalizing cache with
  | nil => rfl
  | cons change rest ih =>
      rw [List.map_cons, performAll_cons, perform_change, ih]
      rfl

/-- Works that have each been done as if they had been the only one. -/
structure Separately (cache : Cache) (tree : Tree) (works : List Work)
    (outcome : List Reply × Cache) : Prop where
  replies : outcome.1 = works.map fun work => (cache.perform tree work).1
  held : Held cache outcome.2
  touched : ∀ work ∈ works, ∀ key, work.key? cache.extension = some key →
    AgreesAt key (cache.perform tree work).2 outcome.2
  untouched : ∀ key, (∀ work ∈ works, work.key? cache.extension ≠ some key) →
    AgreesAt key cache outcome.2

/-- Works about different tables do not take note of each other. -/
theorem separately_performAll {cache : Cache} (hcache : cache.WellFormed) (tree : Tree)
    {works : List Work} (hapart : works.Pairwise (Work.Apart cache.extension)) :
    Separately cache tree works (cache.performAll tree works) := by
  induction works generalizing cache with
  | nil => exact ⟨rfl, Held.refl cache, by simp, fun key _ => AgreesAt.refl key cache⟩
  | cons work rest ih =>
      obtain ⟨hwork, hrest⟩ := List.pairwise_cons.1 hapart
      have hheld := held_perform hcache tree work
      have hafter := wellFormed_perform hcache tree work
      have hextension := hheld.extension
      have hseparate := ih hafter (hextension ▸ hrest)
      -- the others come upon their tables as they were before this work
      have hfirst : ∀ other ∈ rest, ∀ key, other.key? cache.extension = some key →
          AgreesAt key cache (cache.perform tree work).2 := fun other hother key hkey =>
        agreesAt_perform_of_ne hcache tree fun hsame => hwork other hother key hsame hkey
      have hsame := fun other hother =>
        perform_congr hcache hafter hheld.toFrame tree (hfirst other hother)
      rw [performAll_cons]
      refine ⟨?_, hheld.trans hseparate.held, ?_, ?_⟩
      · rw [hseparate.replies, List.map_cons, List.cons.injEq]
        exact ⟨rfl, List.map_congr_left fun other hother => (hsame other hother).1⟩
      · intro other hother key hkey
        rcases List.mem_cons.1 hother with rfl | hother
        · refine hseparate.untouched key fun later hlater => ?_
          rw [hextension]
          exact hwork later hlater key hkey
        · exact ((hsame other hother).2 key hkey).trans
            (hseparate.touched other hother key (hextension ▸ hkey))
      · intro key hnone
        obtain ⟨hhead, htail⟩ := List.forall_mem_cons.1 hnone
        exact (agreesAt_perform_of_ne hcache tree hhead).trans
          (hseparate.untouched key (hextension ▸ htail))

/-! ### The same but for the trace -/

/-- Two caches that differ in the trace at most. -/
structure SameTables (cache other : Cache) : Prop where
  entries : other.entries = cache.entries
  committed : other.connection.committed = cache.connection.committed
  working : other.connection.working = cache.connection.working
  file : other.connection.file = cache.connection.file
  refusals : other.connection.refusals = cache.connection.refusals
  format : other.format = cache.format
  extension : other.extension = cache.extension
  matching : other.matching = cache.matching
  inbox : other.inbox = cache.inbox

section Same

variable {cache first second : Cache}

theorem sameTables_of_agreesAt (h : Held cache first) (h' : Held cache second)
    (hagrees : ∀ key, AgreesAt key first second) : SameTables first second where
  entries := NameMap.ext_find? fun key => (hagrees key).entry
  committed := by
    cases hworking : cache.connection.working with
    | some store =>
        have hopen : cache.connection.working.isSome = true := by simp [hworking]
        rw [h.committed hopen, h'.committed hopen]
    | none =>
        have hfirst : first.connection.contents = first.connection.committed := by
          simp [Connection.contents, h.working, hworking]
        have hsecond : second.connection.contents = second.connection.committed := by
          simp [Connection.contents, h'.working, hworking]
        rw [← hfirst, ← hsecond]
        exact NameMap.ext_find? fun key => (hagrees key).relation
  working := h'.working.trans h.working.symm
  file := h'.file.trans h.file.symm
  refusals := h'.refusals.trans h.refusals.symm
  format := h'.format.trans h.format.symm
  extension := h'.extension.trans h.extension.symm
  matching := h'.matching.trans h.matching.symm
  inbox := h'.inbox.trans h.inbox.symm

theorem Separately.sameTables {tree : Tree} {works others : List Work}
    {outcome outcome' : List Reply × Cache} (h : Separately cache tree works outcome)
    (h' : Separately cache tree others outcome') (hperm : works.Perm others) :
    SameTables outcome.2 outcome'.2 := by
  refine sameTables_of_agreesAt h.held h'.held fun key => ?_
  by_cases htouched : ∃ work ∈ works, work.key? cache.extension = some key
  · obtain ⟨work, hwork, hkey⟩ := htouched
    exact (h.touched work hwork key hkey).symm.trans
      (h'.touched work (hperm.mem_iff.1 hwork) key hkey)
  · have hnone : ∀ work ∈ works, work.key? cache.extension ≠ some key :=
      fun work hwork hkey => htouched ⟨work, hwork, hkey⟩
    exact (h.untouched key hnone).symm.trans
      (h'.untouched key fun work hwork => hnone work (hperm.mem_iff.2 hwork))

end Same

theorem Work.Apart.symm {extension : String} {first second : Work}
    (h : first.Apart extension second) : second.Apart extension first :=
  fun key hsecond hfirst => h key hfirst hsecond

/-! ### Any order -/

/-- The order in which different tables are dealt with makes no difference. -/
structure OrderFree (cache : Cache) (tree : Tree) : Prop where
  /-- Two works answer the same in either order and leave the same tables, -/
  pair : ∀ first second : Work, first.Apart cache.extension second →
    ((cache.perform tree second).2.perform tree first).1 = (cache.perform tree first).1 ∧
      ((cache.perform tree first).2.perform tree second).1 = (cache.perform tree second).1 ∧
      SameTables ((cache.perform tree first).2.perform tree second).2
        ((cache.perform tree second).2.perform tree first).2
  /-- and so do many of them, each with the answer that it gives alone. -/
  many : ∀ works others : List Work, works.Pairwise (Work.Apart cache.extension) →
    works.Perm others →
    (cache.performAll tree works).1 = (works.map fun work => (cache.perform tree work).1) ∧
      (cache.performAll tree others).1 = (others.map fun work => (cache.perform tree work).1) ∧
      SameTables (cache.performAll tree works).2 (cache.performAll tree others).2
  /-- Changes of files with different table names can be taken note of in any order. -/
  changes : ∀ changes others : List Change,
    changes.Pairwise (fun first second => ∀ key, keyOf? cache.extension first = some key →
      keyOf? cache.extension second ≠ some key) →
    changes.Perm others →
    SameTables (cache.handleChanges tree changes) (cache.handleChanges tree others)

theorem orderFree_of_reachable {cache : Cache} (hreachable : cache.Reachable) (tree : Tree) :
    OrderFree cache tree := by
  have hcache := hreachable.wellFormed
  have hmany : ∀ works others : List Work, works.Pairwise (Work.Apart cache.extension) →
      works.Perm others → Separately cache tree works (cache.performAll tree works) ∧
        Separately cache tree others (cache.performAll tree others) := by
    intro works others hapart hperm
    have hapart' := (hperm.pairwise_iff fun h => Work.Apart.symm h).1 hapart
    exact ⟨separately_performAll hcache tree hapart, separately_performAll hcache tree hapart'⟩
  refine ⟨fun first second hapart => ?_, fun works others hapart hperm => ?_,
    fun changes others hapart hperm => ?_⟩
  · obtain ⟨h, h'⟩ := hmany [first, second] [second, first] (by simpa using hapart)
      (List.Perm.swap second first [])
    have hreplies := h.replies
    have hreplies' := h'.replies
    simp only [performAll, List.map_cons, List.map_nil, List.cons.injEq, and_true, true_and]
      at hreplies hreplies'
    exact ⟨hreplies', hreplies, h.sameTables h' (List.Perm.swap second first [])⟩
  · obtain ⟨h, h'⟩ := hmany works others hapart hperm
    exact ⟨h.replies, h'.replies, h.sameTables h' hperm⟩
  · rw [← performAll_changes, ← performAll_changes]
    obtain ⟨h, h'⟩ := hmany (changes.map .change) (others.map .change)
      (List.pairwise_map.2 hapart) (hperm.map _)
    exact h.sameTables h' (hperm.map _)

theorem orderFree_of_one_file :
    OrderFree (ofOneFile .inMemory .substring) oneFile ∧
      (Work.refresh "A").Apart (ofOneFile .inMemory .substring).extension
        (.change (changeAt "/b.c" 5)) := by
  refine ⟨orderFree_of_reachable (reachable_ofOneFile .inMemory .substring rfl) oneFile, ?_⟩
  have hkey : keyOf? "c" (changeAt "/b.c" 5) = some "b" := by decide
  have hother : lower "A" = "a" := by decide
  intro key hfirst hsecond
  obtain rfl : lower "A" = key := Option.some.inj hfirst
  rw [hother] at hsecond
  have hsame := hkey.symm.trans hsecond
  revert hsame
  decide

end Cache

end LiveTables
