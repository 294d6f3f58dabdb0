import LiveTables.Proofs.LoadOutcome
import LiveTables.Proofs.QueryContract

/-!
# Where served rows come from

From the first change of a name on that a cache takes note of, a query of the whole table answers
with the rows of the last load, or with none: the load was of the file that was named in the change
noted last before it. Until then the name is the store's. A change that is skipped or fails leaves
there what the store held before, and a query answers with it.
-/

namespace LiveTables

open LiveTables.Engine LiveTables.Files LiveTables.Sql LiveTables.Table LiveTables.Text
open LiveTables.Watch

namespace Cache

/-! ### Dealings with files -/

inductive Dealing where
  /-- A change of a name was noted: its table was made or marked. -/
  | noted (key path : String)
  /-- The table of a key was loaded, with the files as they are in a tree. -/
  | loaded (key : String) (tree : Tree)

def Dealing.key : Dealing → String
  | .noted key _ => key
  | .loaded key _ => key

/-- The path in a change of a key. -/
def Dealing.path? (key : String) : Dealing → Option String
  | .noted other path => if other = key then some path else none
  | .loaded .. => none

/-- What a change comes to: nothing if it is skipped or fails. -/
def noting (cache : Cache) (tree : Tree) (change : Change) : List Dealing :=
  match (cache.handleChange tree change).1 with
  | .ok .created | .ok .markedDirty =>
    (keyOf? cache.extension change).toList.map (.noted · change.path)
  | .ok .skipped | .error _ => []

def loadDealing (cache : Cache) (tree : Tree) (name : String) : List Dealing :=
  match (cache.reload tree name).1 with
  | .ok _ => [.loaded (lower name) tree]
  | .error _ => []

/-- The changes that a cache notes, given to it directly or by draining, and its loads. -/
def dealings : Recorder Dealing := ⟨noting, loadDealing⟩

/-- The path of the change of a key that was noted last. -/
def source? (log : List Dealing) (key : String) : Option String :=
  (log.filterMap (Dealing.path? key)).getLast?

/-- The values of the data rows of a file, with the types that the first of them suggests. -/
def ValuesOf (source : List (Except Failure Record.Row)) (rows : List (List Value)) : Prop :=
  source = [] ∧ rows = [] ∨ ∃ sample rest, source = .ok sample :: rest ∧
    List.Forall₂ (RowValues (sample.fields.map ColumnType.infer)) source rows

/-- The rows are the values of the file that the table of a key was loaded from last, which is the
file of the change noted last before. Without a load there are none. -/
def ReadFrom (format : Record.Format) (log : List Dealing) (key : String)
    (rows : List (List Value)) : Prop :=
  rows = [] ∧ (∀ tree, .loaded key tree ∉ log) ∨
  ∃ before tree after path source, log = before ++ .loaded key tree :: after ∧
    (∀ other, .loaded key other ∉ after) ∧ source? before key = some path ∧
    sourceRows format tree path = .ok source ∧ ValuesOf source rows

section Logs

variable {log more : List Dealing} {key : String}

theorem source?_append : source? (log ++ more) key = (source? more key).or (source? log key) := by
  rw [source?, List.filterMap_append, List.getLast?_append]
  rfl

theorem source?_singleton_of_ne {dealing : Dealing} (hne : dealing.key ≠ key) :
    source? [dealing] key = none := by
  cases dealing with
  | noted other path =>
      have hpath : Dealing.path? key (.noted other path) = none := if_neg hne
      simp [source?, hpath]
  | loaded other tree => rfl

theorem source?_noted (path : String) : source? (log ++ [.noted key path]) key = some path := by
  have hpath : Dealing.path? key (.noted key path) = some path := if_pos rfl
  simp [source?, hpath]

theorem source?_loaded (other : String) (tree : Tree) :
    source? (log ++ [.loaded other tree]) key = source? log key := by
  rw [source?_append]
  rfl

theorem source?_eq_none_iff : source? log key = none ↔ ∀ path, .noted key path ∉ log := by
  have hpath : ∀ dealing : Dealing,
      dealing.path? key = none ↔ ∀ path, dealing ≠ .noted key path := by
    rintro (⟨other, path⟩ | ⟨other, tree⟩) <;> simp [Dealing.path?]
  simp only [source?, List.getLast?_eq_none_iff, List.filterMap_eq_nil_iff, hpath]
  constructor
  · intro h path hmem
    exact h _ hmem path rfl
  · rintro h dealing hmem path rfl
    exact h path hmem

theorem ReadFrom.append {format : Record.Format} {rows : List (List Value)}
    (h : ReadFrom format log key rows) (hmore : ∀ tree, .loaded key tree ∉ more) :
    ReadFrom format (log ++ more) key rows := by
  rcases h with ⟨hnone, hlog⟩ | ⟨before, tree, after, path, source, rfl, hafter, hread⟩
  · refine Or.inl ⟨hnone, fun tree hmem => ?_⟩
    exact (List.mem_append.1 hmem).elim (hlog tree) (hmore tree)
  · refine Or.inr ⟨before, tree, after ++ more, path, source, by simp, fun other hmem => ?_, hread⟩
    exact (List.mem_append.1 hmem).elim (hafter other) (hmore other)

end Logs

/-! ### The invariant -/

/-- What holds of a cache that began with a store, with the log of its dealings: each table has the
path and the rows that the log tells, and names without a table are in the store as they were. -/
structure Sourced (format : Record.Format) (initial : Store) (cache : Cache)
    (log : List Dealing) : Prop where
  wellFormed : cache.WellFormed
  sameFormat : cache.format = format
  paths : ∀ key, (cache.entries.find? key).map (·.path) = source? log key
  others : ∀ key, cache.entries.find? key = none →
    cache.relation? key = initial.find? key ∧ ∀ tree, .loaded key tree ∉ log
  closed : ∀ key entry, cache.entries.find? key = some entry → cache.connection.working = none
  rows : ∀ key entry, cache.entries.find? key = some entry → ∃ rows,
    cache.relation? key = some (.table entry.table.columnDefs rows) ∧ ReadFrom format log key rows

section Steps

variable {format : Record.Format} {initial : Store} {log : List Dealing} {cache : Cache}

theorem sourced_new (connection : Connection) (format : Record.Format) (extension : String)
    (matching : Settings.Matching) :
    Sourced format connection.contents (.new connection format extension matching) [] := by
  refine ⟨?_, rfl, fun _ => rfl, fun _ _ => ⟨rfl, fun _ => List.not_mem_nil⟩, ?_, ?_⟩
  · simp [WellFormed, Cache.new]
  · simp [Cache.new]
  · simp [Cache.new]

theorem Sourced.withInbox (h : Sourced format initial cache log) (inbox : Option Inbox) :
    Sourced format initial { cache with inbox := inbox } log :=
  ⟨h.wellFormed, h.sameFormat, h.paths, h.others, h.closed, h.rows⟩

theorem Sourced.withRefusals (h : Sourced format initial cache log) (refusals : Refusals) :
    Sourced format initial (cache.withRefusals refusals) log :=
  ⟨h.wellFormed, h.sameFormat, h.paths, h.others, h.closed, h.rows⟩

theorem Sourced.traced (h : Sourced format initial cache log) (spans : List Span) :
    Sourced format initial (cache.traced spans) log :=
  ⟨h.wellFormed, h.sameFormat, h.paths, h.others, h.closed, h.rows⟩

theorem Sourced.withMark (h : Sourced format initial cache log) {key : String} {entry : Entry}
    (hentry : cache.entries.find? key = some entry) (path : String) :
    Sourced format initial (cache.withMark key entry path) (log ++ [.noted key path]) := by
  have hloaded : ∀ other tree, .loaded other tree ∉ [Dealing.noted key path] := by simp
  refine ⟨h.wellFormed.withMark hentry _, h.sameFormat, ?_, ?_, ?_, ?_⟩
  · intro other
    by_cases hkey : key = other
    · subst hkey
      rw [withMark_entries, NameMap.find?_insert_self, source?_noted]
      rfl
    · have hother : (Dealing.noted key path).key ≠ other := hkey
      rw [withMark_entries, NameMap.find?_insert_of_ne _ (Ne.symm hkey), source?_append,
        source?_singleton_of_ne hother, Option.none_or]
      exact h.paths other
  · intro other hnone
    obtain ⟨hrelation, hlog⟩ := h.others other (NameMap.find?_insert_eq_none_iff.1 hnone).2
    exact ⟨hrelation, fun tree hmem =>
      (List.mem_append.1 hmem).elim (hlog tree) (hloaded other tree)⟩
  · intro other found _
    exact h.closed key entry hentry
  · intro other found hfound
    have hrows : ∃ rows, cache.relation? other = some (.table found.table.columnDefs rows) ∧
        ReadFrom format log other rows := by
      rcases NameMap.find?_insert_eq_some_iff.1 hfound with ⟨rfl, rfl⟩ | ⟨_, hfound⟩
      · exact h.rows other entry hentry
      · exact h.rows other found hfound
    obtain ⟨rows, hrelation, hread⟩ := hrows
    exact ⟨rows, hrelation, hread.append (hloaded other)⟩

/-- A table is put in place with rows that the log tells of it, once a dealing with its key is in
it. -/
theorem Sourced.withEntry (h : Sourced format initial cache log) (entry : Entry)
    (hformed : entry.table.WellFormed) (hclosed : cache.connection.working = none)
    (dealing : Dealing) (hkey : dealing.key = lower entry.table.name)
    (hpath : source? (log ++ [dealing]) (lower entry.table.name) = some entry.path)
    {rows : List (List Value)}
    (hread : ReadFrom format (log ++ [dealing]) (lower entry.table.name) rows)
    (spans : List Span) :
    Sourced format initial (cache.withEntry entry rows spans) (log ++ [dealing]) := by
  have hloaded : ∀ key tree, key ≠ lower entry.table.name → .loaded key tree ∉ [dealing] := by
    rintro key tree hne hmem
    obtain rfl := List.mem_singleton.1 hmem
    exact hne hkey
  refine ⟨h.wellFormed.withEntry entry hformed _ _, h.sameFormat, ?_, ?_, fun _ _ _ => hclosed, ?_⟩
  · intro key
    by_cases hsame : key = lower entry.table.name
    · subst hsame
      rw [withEntry_entries, NameMap.find?_insert_self, hpath]
      rfl
    · rw [withEntry_entries, NameMap.find?_insert_of_ne _ hsame, source?_append,
        source?_singleton_of_ne (hkey ▸ Ne.symm hsame), Option.none_or]
      exact h.paths key
  · intro key hnone
    obtain ⟨hne, hnone⟩ := NameMap.find?_insert_eq_none_iff.1 hnone
    obtain ⟨hrelation, hlog⟩ := h.others key hnone
    rw [withEntry_relation?_of_ne cache entry rows spans hne]
    exact ⟨hrelation, fun tree hmem =>
      (List.mem_append.1 hmem).elim (hlog tree) (hloaded key tree hne)⟩
  · intro key found hfound
    rcases NameMap.find?_insert_eq_some_iff.1 hfound with ⟨rfl, rfl⟩ | ⟨hne, hfound⟩
    · exact ⟨rows, withEntry_relation?_self cache entry rows spans hclosed, hread⟩
    · obtain ⟨kept, hrelation, hkept⟩ := h.rows key found hfound
      rw [withEntry_relation?_of_ne cache entry rows spans hne]
      exact ⟨kept, hrelation, hkept.append fun tree => hloaded key tree hne⟩

theorem Sourced.handleChange (h : Sourced format initial cache log) (tree : Tree)
    (change : Change) :
    Sourced format initial (cache.handleChange tree change).2
      (log ++ noting cache tree change) := by
  rcases handleChange_outcome cache tree change with ⟨outcome, spans, _, hidle, _, hafter⟩ |
    ⟨name, entry, hname, hentry, hafter⟩ | ⟨name, table, hname, hnew, hsampled, hrefusal, hafter⟩
  · have hnothing : noting cache tree change = [] := by
      rw [noting, hafter]
      rcases hidle with rfl | ⟨failure, rfl⟩ <;> rfl
    rw [hnothing, hafter, List.append_nil]
    exact h.traced spans
  · have hnoted : noting cache tree change = [.noted (lower name) change.path] := by
      simp [noting, hafter, keyOf?_of_name hname]
    rw [hnoted, hafter]
    exact h.withMark hentry change.path
  · obtain ⟨htable, rfl, _⟩ := sampled_table (isIdentifier_of_nameFor? hname) hsampled
    have hnoted : noting cache tree change = [.noted (lower table.name) change.path] := by
      simp [noting, hafter, keyOf?_of_name hname]
    rw [hnoted, hafter]
    -- the table is new, so it has not been loaded yet
    refine h.withEntry ⟨table, change.path⟩ htable (working_of_refusal?_eq_none hrefusal)
      (.noted (lower table.name) change.path) rfl (source?_noted _)
      (Or.inl ⟨rfl, fun other hmem => ?_⟩) _
    rcases List.mem_append.1 hmem with hmem | hmem
    · exact (h.others _ hnew).2 other hmem
    · simp at hmem

/-- Rows that a load puts into a table are those of its file. -/
theorem readFrom_of_loading (h : Sourced format initial cache log) {tree : Tree} {key : String}
    {entry : Entry} (hentry : cache.entries.find? key = some entry) {table : Descriptor}
    {batch : Batch} (hloading : cache.loading tree entry = .ok (table, batch)) :
    ReadFrom format (log ++ [.loaded key tree]) key batch.rows := by
  obtain ⟨hfresh, hread, _⟩ := loading_eq_ok_iff.1 hloading
  obtain ⟨rows, hrows, hbatch⟩ := readBatch_eq_ok_iff.1 hread
  obtain ⟨values, hvalues, rfl⟩ := batch_eq_ok_iff.1 hbatch
  have htyped := Descriptor.typedRows_eq_ok_iff.1 hvalues
  have hpath : source? log key = some entry.path := by rw [← h.paths, hentry, Option.map_some]
  have hvaluesOf : ValuesOf rows values := by
    rcases (freshTable_eq_ok_iff hrows).1 hfresh with ⟨sample, rest, rfl, hinfer⟩ | ⟨rfl, _⟩
    · rw [types_of_infer hinfer] at htyped
      exact Or.inr ⟨sample, rest, rfl, htyped⟩
    · exact Or.inl ⟨rfl, List.forall₂_nil_left_iff.1 htyped⟩
  exact Or.inr ⟨log, tree, [], entry.path, rows, rfl, fun _ => List.not_mem_nil, hpath,
    h.sameFormat ▸ hrows, hvaluesOf⟩

theorem Sourced.reload (h : Sourced format initial cache log) (tree : Tree) (name : String) :
    Sourced format initial (cache.reload tree name).2 (log ++ loadDealing cache tree name) := by
  cases hentry : cache.entries.find? (lower name) with
  | none =>
      rw [loadDealing, reload_of_unknown hentry]
      simpa using h
  | some entry =>
      rcases reload_cases h.wellFormed tree hentry with
        ⟨failure, spans, _, _, hreload⟩ | ⟨table, batch, hloading, htable, hname, hreload⟩
      · rw [loadDealing, hreload]
        simpa using h.traced spans
      · have hkey : lower name = lower table.name := by
          rw [hname]
          exact (h.wellFormed _ _ hentry).1
        have hloaded : loadDealing cache tree name = [.loaded (lower table.name) tree] := by
          rw [loadDealing, hreload, hkey]
        have hpath : source? (log ++ [.loaded (lower table.name) tree]) (lower table.name) =
            some entry.path := by
          rw [source?_loaded, ← hkey, ← h.paths, hentry, Option.map_some]
        have hread := readFrom_of_loading h (hkey ▸ hentry) hloading
        rw [hloaded, hreload]
        exact h.withEntry ⟨table.markClean, entry.path⟩ htable.markClean (h.closed _ _ hentry)
          (.loaded (lower table.name) tree) rfl hpath hread _

theorem Sourced.apply (h : Sourced format initial cache log) (tree : Tree) (operation : Operation) :
    Sourced format initial (cache.apply tree operation)
      (log ++ dealings.ofOperation cache tree operation) := by
  refine Recorder.ofOperation_induction (motive := Sourced format initial) tree ?_ ?_ ?_ ?_ ?_ h
    operation
  · intro cache log inbox h
    exact h.withInbox inbox
  · intro cache log refusals h
    exact h.withRefusals refusals
  · intro cache log spans h
    exact h.traced spans
  · intro cache log change h
    exact h.handleChange tree change
  · intro cache log name _ h
    exact h.reload tree name

theorem Sourced.run (h : Sourced format initial cache log) (steps : List (Tree × Operation)) :
    Sourced format initial (cache.run steps) (log ++ dealings.ofRun cache steps) := by
  induction steps generalizing cache log with
  | nil => simpa [Cache.run, Recorder.ofRun] using h
  | cons step rest ih =>
      rw [Recorder.ofRun, ← List.append_assoc]
      exact ih (h.apply step.1 step.2)

end Steps

/-! ### Answers -/

/-- What a query of a whole table answers, from what has been dealt with files: the rows that were
read from them if a change of the name was noted, and what the store held at first if none was. -/
structure Served (format : Record.Format) (initial : Store) (log : List Dealing) (key : String)
    (answer : Answer) : Prop where
  read : ∀ path, .noted key path ∈ log → ReadFrom format log key answer.rows
  kept : (∀ path, .noted key path ∉ log) → ∃ relation, initial.find? key = some relation ∧
    answer = ⟨relation.labels, relation.rows⟩

section Runs

variable {connection : Connection} {format : Record.Format} {extension : String}
  {matching : Settings.Matching} {steps : List (Tree × Operation)}

theorem execute_eq_ok {cache : Cache} {tree : Tree} {query : String} {answer : Answer} {count : Nat}
    (h : (cache.execute tree query).1 = .ok (answer, count)) :
    (cache.freshened tree query).connection.answer query [] = .ok answer := by
  cases hfailed : ((cache.drain tree).2.refreshEach tree
      ((cache.drain tree).2.referenced query)).1.failed with
  | cons failed rest =>
      rw [execute_of_failed hfailed] at h
      cases h
  | nil =>
      rw [execute_of_fresh hfailed] at h
      cases houtcome : (cache.freshened tree query).connection.answer query [] with
      | error cause => simp [houtcome, Except.mapError, Except.map] at h
      | ok found =>
          simp only [houtcome, Except.mapError, Except.map, Except.ok.injEq, Prod.mk.injEq] at h
          rw [h.1]

/-- A query of a whole table answers with rows that were read from the file of its name, if a change
of that file has been noted, and with what the store has had under the name from the start if
none has. -/
theorem served_of_run (tree : Tree) {query name : String}
    (hquery : Connection.readText query = .ok [.select (.allColumns name)]) {answer : Answer}
    {count : Nat}
    (hanswer : (((Cache.new connection format extension matching).run steps).execute tree query).1 =
      .ok (answer, count)) :
    Served format connection.contents
      (dealings.ofRun (.new connection format extension matching)
        (steps ++ [(tree, .execute query)]))
      (lower name) answer := by
  have hrun := (sourced_new connection format extension matching).run
    (steps ++ [(tree, .execute query)])
  rw [run_append, List.nil_append] at hrun
  set cache := (Cache.new connection format extension matching).run steps
  -- the query is run on the tables as they are afterwards
  have hsame : ∀ key, (cache.apply tree (.execute query)).relation? key =
      (cache.freshened tree query).relation? key := by
    intro key
    rcases execute_cases cache tree query with hafter | hafter
    · rw [apply, hafter]
    · rw [apply, hafter]
      rfl
  have hasked := execute_eq_ok hanswer
  have hfound : ∀ relation, (cache.apply tree (.execute query)).relation? (lower name) =
      some relation → answer = ⟨relation.labels, relation.rows⟩ := by
    intro relation hrelation
    rw [Connection.answer_allColumns hquery ((hsame _).symm.trans hrelation)] at hasked
    exact (Except.ok.inj hasked).symm
  have hpath := hrun.paths (lower name)
  constructor
  · intro path hnoted
    obtain ⟨source, hsource⟩ := Option.ne_none_iff_exists'.1
      fun hnone => source?_eq_none_iff.1 hnone path hnoted
    obtain ⟨entry, hentry, _⟩ := Option.map_eq_some_iff.1 (hpath.trans hsource)
    obtain ⟨rows, hrelation, hread⟩ := hrun.rows _ entry hentry
    rw [hfound _ hrelation]
    exact hread
  · intro hnoted
    have hnone := Option.map_eq_none_iff.1 (hpath.trans (source?_eq_none_iff.2 hnoted))
    have hkept := (hrun.others _ hnone).1
    cases hrelation : connection.contents.find? (lower name) with
    | some relation => exact ⟨relation, rfl, hfound relation (hkept.trans hrelation)⟩
    | none =>
        have hnothing : (cache.freshened tree query).connection.contents.relation name =
            .error (.unknownRelation name) := by
          have hfind : (cache.freshened tree query).connection.contents.find? (lower name) = none :=
            (hsame _).symm.trans (hkept.trans hrelation)
          simp [Store.relation, hfind]
        simp [Connection.answer, hquery, Store.answer, hnothing, bind, Except.bind] at hasked

end Runs

/-! ### A store with a table from before -/

def leftover : Connection :=
  { Connection.inMemory with
    committed := NameMap.empty.insert "a" (.table [⟨"x", .varchar, false⟩] [[.text "old"]]) }

def emptyFile : Tree := ⟨NameMap.empty.insert "a.c" (.file 1 [] 5), 2, 0⟩

theorem readText_allColumns_a :
    Connection.readText (allColumnsText "a") = .ok [.select (.allColumns "a")] :=
  readText_allColumnsText ⟨by decide, by decide⟩

/-- A cache that has never done anything, on a store with a table of the name of its only file. -/
def ofLeftover : Cache := .new leftover ⟨44, false⟩ "c" .substring

/-- A query that finds the table of the file made and not loaded, once the inbox is drained. -/
theorem execute_oneFile {cache : Cache} (hformed : (cache.drain oneFile).2.WellFormed)
    (hformat : (cache.drain oneFile).2.format = ⟨44, false⟩)
    (hreferenced : (cache.drain oneFile).2.referenced (allColumnsText "a") = ["a"])
    (hentry : (cache.drain oneFile).2.entries.find? "a" = some ⟨oneFileTable, "/a.c"⟩)
    (haccepts : refusal? (cache.drain oneFile).2.connection oneFileTable [[.integer 1]] = none) :
    (cache.execute oneFile (allColumnsText "a")).1 = .ok (⟨["a_0"], [[.integer 1]]⟩, 1) ∧
      dealings.ofLoads (cache.drain oneFile).2 oneFile ["a"] = [.loaded "a" oneFile] := by
  have hlower : lower "a" = "a" := by decide
  have hloading := loading_oneFile hformat
  rw [haccepts] at hloading
  obtain ⟨after, hreload, _, _, hrelation⟩ :=
    reload_of_loading hformed (hlower ▸ hentry) hloading
  have hdirty : (cache.drain oneFile).2.isDirty "a" = true := isDirty_iff.2 ⟨_, hentry, rfl⟩
  have hrefresh := @refreshEach_cons_of_ok _ after oneFile "a" [] _ hdirty hreload
  have hfresh : cache.freshened oneFile (allColumnsText "a") = after := by
    rw [freshened_eq, hreferenced, hrefresh]
    rfl
  have hnone : ((cache.drain oneFile).2.refreshEach oneFile
      ((cache.drain oneFile).2.referenced (allColumnsText "a"))).1.failed = [] := by
    rw [hreferenced, hrefresh]
    rfl
  constructor
  · rw [execute_of_fresh hnone, hfresh, hreferenced, hrefresh,
      Connection.answer_allColumns readText_allColumns_a hrelation]
    rfl
  · simp [Recorder.ofLoads, hdirty, dealings, loadDealing, hreload, hlower]

/-- The change of the file waits in the inbox until the query drains it. -/
theorem served_of_waiting_change :
    Served ⟨44, false⟩ leftover.contents [.noted "a" "/a.c", .loaded "a" oneFile] "a"
      ⟨["a_0"], [[.integer 1]]⟩ := by
  let steps : List (Tree × Operation) := [(oneFile, .attach), (oneFile, .send [changeAt "/a.c" 5])]
  let emptied : Cache := { ofLeftover with inbox := some .new }
  have hwilling : refusal? emptied.connection oneFileTable [] = none := rfl
  have hchange := @handleChange_oneFile emptied rfl rfl rfl
  rw [hwilling] at hchange
  have hdrain : ((ofLeftover.run steps).drain oneFile).2 =
      emptied.withEntry ⟨oneFileTable, "/a.c"⟩ [] (recreateSpans oneFileTable) :=
    (drain_eq _ _).trans (congrArg Prod.snd hchange)
  have hformed : ((ofLeftover.run steps).drain oneFile).2.WellFormed :=
    wellFormed_drain (wellFormed_run
      (Reachable.new leftover ⟨44, false⟩ "c" .substring).wellFormed steps) oneFile
  obtain ⟨hanswer, hloads⟩ := execute_oneFile hformed (hdrain ▸ rfl) (hdrain ▸ rfl)
    (hdrain ▸ NameMap.find?_insert_self _ _ _) (hdrain ▸ rfl)
  have hkey : keyOf? emptied.extension (changeAt "/a.c" 5) = some "a" := by decide
  have hnoted : noting emptied oneFile (changeAt "/a.c" 5) = [.noted "a" "/a.c"] := by
    rw [noting, hchange, hkey]
    rfl
  have hdrained : dealings.ofDrain (ofLeftover.run steps) oneFile = [.noted "a" "/a.c"] := by
    have hemptied : (ofLeftover.run steps).emptied = emptied := rfl
    have hwaiting : (ofLeftover.run steps).waiting = [changeAt "/a.c" 5] := rfl
    have hofChange : dealings.ofChange = noting := rfl
    rw [Recorder.ofDrain, hemptied, hwaiting, Recorder.ofChanges, hofChange, hnoted]
    rfl
  have hreferenced : ((ofLeftover.run steps).drain oneFile).2.referenced (allColumnsText "a") =
      ["a"] := hdrain ▸ rfl
  have hlog : dealings.ofRun ofLeftover (steps ++ [(oneFile, .execute (allColumnsText "a"))]) =
      [.noted "a" "/a.c", .loaded "a" oneFile] := by
    have hsent : dealings.ofRun ofLeftover steps = [] := rfl
    rw [Recorder.ofRun_append, hsent, Recorder.ofRun, Recorder.ofRun, Recorder.ofOperation,
      hdrained, hreferenced, hloads]
    rfl
  have hlower : lower "a" = "a" := by decide
  rw [← hlog, ← hlower]
  exact served_of_run oneFile readText_allColumns_a hanswer

section Leftover

variable {tree : Tree}
  (hnothing : ∀ sample rest, sourceRows ⟨44, false⟩ tree "/a.c" ≠ .ok (.ok sample :: rest))

include hnothing

theorem handleChange_leftover : ∃ outcome, (outcome = .ok .skipped ∨
    ∃ failure, outcome = .error failure) ∧
      ofLeftover.handleChange tree (changeAt "/a.c" 5) = (outcome, ofLeftover) := by
  have hname : nameFor? (changeAt "/a.c" 5).fileName ofLeftover.extension = some "a" := by decide
  have hregister := @register_eq ofLeftover tree "a" "/a.c" (isIdentifier_of_nameFor? hname)
  have hpath : (changeAt "/a.c" 5).path = "/a.c" := rfl
  rw [handleChange_of_unknown hname rfl, hpath]
  have hformat : ofLeftover.format = ⟨44, false⟩ := rfl
  rw [sampled, firstRow, hformat] at hregister
  rcases hrows : sourceRows ⟨44, false⟩ tree "/a.c" with failure | _ | ⟨failure | sample, rest⟩
  · exact ⟨_, Or.inr ⟨failure, rfl⟩, by simpa [hrows] using hregister⟩
  · exact ⟨_, Or.inl rfl, by simpa [hrows] using hregister⟩
  · exact ⟨_, Or.inr ⟨failure, rfl⟩, by simpa [hrows] using hregister⟩
  · exact absurd hrows (hnothing sample rest)

/-- A file without a first row, or of which none can be read, leaves what the store held before, and
a query answers with it. -/
theorem execute_leftover :
    ((ofLeftover.run [(tree, .change (changeAt "/a.c" 5))]).execute tree (allColumnsText "a")).1 =
        .ok (⟨["x"], [[.text "old"]]⟩, 0) := by
  obtain ⟨outcome, _, hchange⟩ := handleChange_leftover hnothing
  have hrun : ofLeftover.run [(tree, .change (changeAt "/a.c" 5))] = ofLeftover :=
    congrArg Prod.snd hchange
  have hrelation : ofLeftover.connection.contents.find? (lower "a") =
      some (.table [⟨"x", .varchar, false⟩] [[.text "old"]]) := NameMap.find?_insert_self _ _ _
  have hfresh : ofLeftover.freshened tree (allColumnsText "a") = ofLeftover := rfl
  rw [hrun, execute_of_fresh rfl, hfresh,
    Connection.answer_allColumns readText_allColumns_a hrelation]
  rfl

theorem dealings_leftover : dealings.ofRun ofLeftover
    [(tree, .change (changeAt "/a.c" 5)), (tree, .execute (allColumnsText "a"))] = [] := by
  obtain ⟨outcome, hidle, hchange⟩ := handleChange_leftover hnothing
  have hnothing : noting ofLeftover tree (changeAt "/a.c" 5) = [] := by
    rw [noting, hchange]
    rcases hidle with rfl | ⟨failure, rfl⟩ <;> rfl
  have hsame : ofLeftover.apply tree (.change (changeAt "/a.c" 5)) = ofLeftover :=
    congrArg Prod.snd hchange
  have hquery : dealings.ofOperation ofLeftover tree (.execute (allColumnsText "a")) = [] := rfl
  rw [Recorder.ofRun, Recorder.ofRun, hsame, hquery]
  exact congrArg (· ++ []) hnothing

end Leftover

theorem sourceRows_emptyFile : sourceRows ⟨44, false⟩ emptyFile "/a.c" = .ok [] := by
  have hstat : emptyFile.stat "/a.c" = .ok (.file 1 [] 5) := by cbv
  have hrows : Record.Format.rows ⟨44, false⟩ [] = [] := by cbv
  simp [sourceRows, Record.Format.openRows, hstat, hrows]

theorem sourceRows_empty : ∃ failure, sourceRows ⟨44, false⟩ .empty "/a.c" = .error failure := by
  have hstat : Tree.empty.stat "/a.c" = .error .notFound := by cbv
  simp [sourceRows, Record.Format.openRows, hstat]

/-- A query behind the change of a file answers with rows that the store held before and that were
never read from the file. -/
def ServesLeftover (tree : Tree) : Prop :=
  ((ofLeftover.run [(tree, .change (changeAt "/a.c" 5))]).execute tree (allColumnsText "a")).1 =
      .ok (⟨["x"], [[.text "old"]]⟩, 0) ∧
  ¬ ReadFrom ⟨44, false⟩ (dealings.ofRun ofLeftover
    [(tree, .change (changeAt "/a.c" 5)), (tree, .execute (allColumnsText "a"))]) "a"
    [[.text "old"]]

theorem servesLeftover {tree : Tree}
    (hnothing : ∀ sample rest, sourceRows ⟨44, false⟩ tree "/a.c" ≠ .ok (.ok sample :: rest)) :
    ServesLeftover tree := by
  refine ⟨execute_leftover hnothing, ?_⟩
  rw [dealings_leftover hnothing]
  rintro (⟨hnone, _⟩ | ⟨before, _, after, _, _, hlog, _⟩)
  · cases hnone
  · simp at hlog

/-- Not every change is noted: with the first of these trees it is skipped, with the second it
fails. -/
theorem leftover_of_untaken_names : ServesLeftover emptyFile ∧ ServesLeftover .empty := by
  constructor
  · refine servesLeftover fun sample rest hrows => ?_
    rw [sourceRows_emptyFile] at hrows
    cases hrows
  · refine servesLeftover fun sample rest hrows => ?_
    obtain ⟨failure, hfailure⟩ := sourceRows_empty
    rw [hfailure] at hrows
    cases hrows

end Cache

end LiveTables
