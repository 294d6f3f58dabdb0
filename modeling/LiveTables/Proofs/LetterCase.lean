import LiveTables.Proofs.IndependentTables
import LiveTables.Proofs.LoadOutcome
import LiveTables.Proofs.QueryMatching
import LiveTables.Proofs.QueryStretches

/-!
# Letter case

No mark of a query is a letter, so a query in lower case is taken apart as the query itself is, and
its words are the same. File names and names of tables are compared in lower case, too. So what is
refreshed or found does not depend on the case of letters, and no two tables have names that differ
in it only.
-/

namespace LiveTables

open LiveTables.Engine LiveTables.Files LiveTables.Sql LiveTables.Table LiveTables.Text
open LiveTables.Watch

/-! ### Queries -/

namespace Sql

theorem head?_map_toLower {mark : Char} (hmark : mark.isAlpha = false) (text : List Char) :
    (text.map Char.toLower).head? = some mark ↔ text.head? = some mark := by
  cases text with
  | nil => simp
  | cons c text => simpa using toLower_eq_iff hmark

/-- Two characters that are no pair of marks are none in lower case. -/
theorem not_marks_map_toLower {first second c : Char} {rest : List Char}
    (hfirst : first.isAlpha = false) (hsecond : second.isAlpha = false)
    (h : ∀ tail, c = first → rest = second :: tail → False) :
    ¬ (c.toLower = first ∧ (rest.map Char.toLower).head? = some second) := by
  rw [toLower_eq_iff hfirst, head?_map_toLower hsecond]
  rintro ⟨hc, hrest⟩
  obtain ⟨tail, rfl⟩ := List.head?_eq_some_iff.1 hrest
  exact h tail hc rfl

/-- A text can be put in lower case before or after it is masked. -/
theorem maskFrom_map_toLower (region : Region) (text : List Char) :
    maskFrom region (text.map Char.toLower) = (maskFrom region text).map Char.toLower := by
  -- Where a clause is for a mark it computes. Where it is for all other characters, the character
  -- in lower case has to be none of the marks that the clauses before it are for.
  fun_induction maskFrom region text with
  | case1 => simp [maskFrom]
  | case2 rest ih | case3 rest ih | case4 rest ih | case5 rest ih | case7 rest ih | case9 rest ih
  | case11 rest ih | case14 rest ih => simp [maskFrom, ih]
  | case6 c rest hline hblock hliteral hquote ih =>
      have hmarks : c.toLower ≠ '\'' ∧ c.toLower ≠ '"' :=
        ⟨mt (toLower_eq_iff (by decide)).1 hliteral, mt (toLower_eq_iff (by decide)).1 hquote⟩
      rw [List.map_cons, maskFrom_code_cons hmarks
        (not_marks_map_toLower (by decide) (by decide) hline)
        (not_marks_map_toLower (by decide) (by decide) hblock), ih, List.map_cons]
  | case8 c rest hfeed ih =>
      have hmark : c.toLower ≠ '\n' := mt (toLower_eq_iff (by decide)).1 hfeed
      simp [maskFrom, ih]
  | case10 c rest hclose ih =>
      rw [List.map_cons, maskFrom_blockComment_cons
        (not_marks_map_toLower (by decide) (by decide) hclose), ih]
      rfl
  | case12 rest hescaped ih =>
      have hends : LiteralEnds (rest.map Char.toLower) true := by
        intro hhead
        obtain ⟨tail, rfl⟩ := List.head?_eq_some_iff.1
          ((head?_map_toLower (by decide) rest).1 hhead)
        exact hescaped tail rfl
      simpa [escapedQuotes, closing, ih] using maskFrom_literal_of_ends [] hends
  | case13 c rest hescaped hclose ih =>
      rw [List.map_cons, maskFrom_literal_cons (mt (toLower_eq_iff (by decide)).1 hclose), ih]
      rfl
  | case15 c rest hclose ih =>
      have hmark : c.toLower ≠ '"' := mt (toLower_eq_iff (by decide)).1 hclose
      simp [maskFrom, ih]

theorem wordsFrom_map_toLower (current text : List Char) :
    wordsFrom (current.map Char.toLower) (text.map Char.toLower) =
      (wordsFrom current text).map (List.map Char.toLower) := by
  fun_induction wordsFrom current text with
  | case1 current hempty => simp_all [wordsFrom]
  | case2 current hrun => simp_all [wordsFrom]
  | case3 current c rest hword ih =>
      have hlower : isWordChar c.toLower = true := by rw [isWordChar_toLower, hword]
      simpa [wordsFrom, hlower] using ih
  | case4 current c rest hbreak hempty ih =>
      have hlower : isWordChar c.toLower = false := by simpa [isWordChar_toLower] using hbreak
      simp_all [wordsFrom]
  | case5 current c rest hbreak hrun ih =>
      have hlower : isWordChar c.toLower = false := by simpa [isWordChar_toLower] using hbreak
      simp_all [wordsFrom]

theorem identifierWords_lower (query : String) :
    identifierWords (lower query) = identifierWords query := by
  have hmask : (mask (lower query)).toList = (mask query).toList.map Char.toLower := by
    simp [mask, maskFrom_map_toLower]
  have hwords : words (mask (lower query)).toList =
      (words (mask query).toList).map (List.map Char.toLower) := by
    rw [hmask]
    exact wordsFrom_map_toLower [] _
  have hlower : ∀ word : List Char, lower (String.ofList (word.map Char.toLower)) =
      lower (String.ofList word) := by
    intro word
    have hword : String.ofList (word.map Char.toLower) = lower (String.ofList word) := by
      simp [lower]
    rw [hword, lower_lower]
  rw [identifierWords, identifierWords, hwords, List.map_map]
  simp only [Function.comp_def, hlower]

end Sql

namespace Cache

theorem refersTo_congr (matching : Settings.Matching) {query other : String}
    (h : lower query = lower other) (name : String) :
    refersTo matching query name = refersTo matching other name := by
  have hwords : identifierWords query = identifierWords other := by
    rw [← identifierWords_lower query, h, identifierWords_lower]
  cases matching with
  | substring => simp only [refersTo, h]
  | identifiers => simp only [refersTo, hwords]

theorem plan_congr (cache : Cache) (tree : Tree) {query other : String}
    (h : lower query = lower other) : cache.plan tree query = cache.plan tree other := by
  simp only [plan, referenced, refersTo_congr _ h]

end Cache

/-! ### File names -/

namespace Files.Path

theorem splitLastDot_lower (text : String) : splitLastDot (lower text) =
    (splitLastDot text).map fun parts => (lower parts.1, lower parts.2) := by
  have hdot : (· != '.') ∘ Char.toLower = (· != '.') := by
    funext c
    have hmark : c.toLower = '.' ↔ c = '.' := toLower_eq_iff (by decide)
    rw [Function.comp_apply, Bool.eq_iff_iff, bne_iff_ne, bne_iff_ne]
    exact not_congr hmark
  simp only [splitLastDot, toList_lower, ← List.map_reverse, List.span_eq_takeWhile_dropWhile,
    List.takeWhile_map, List.dropWhile_map, hdot]
  cases text.toList.reverse.dropWhile (· != '.') with
  | nil => rfl
  | cons mark before => simp [lower]

end Files.Path

namespace Table

theorem stem_lower (fileName extension : String) :
    stem (lower fileName) extension = lower (stem fileName extension) := by
  simp only [stem, Path.splitLastDot_lower]
  cases Path.splitLastDot fileName with
  | none => rfl
  | some parts =>
      obtain ⟨before, after⟩ := parts
      simp only [Option.map_some, equalIgnoringCase, lower_lower]
      exact (apply_ite lower _ _ _).symm

theorem isDigit_toLower (c : Char) : c.toLower.isDigit = c.isDigit := by
  have hletter : ∀ letter : Char, letter.isAlpha = true → letter.isDigit = false := by
    intro letter halpha
    rw [Bool.eq_false_iff]
    intro hdigit
    simp [isAlpha_of_isDigit hdigit] at halpha
  by_cases halpha : c.isAlpha = true
  · rw [hletter c halpha, hletter c.toLower (by rw [Char.isAlpha_toLower_eq_isAlpha, halpha])]
  · rw [toLower_of_not_isAlpha (by simpa using halpha)]

/-- The table of a file name in lower case has the name of the table in lower case. -/
theorem nameFor?_lower (fileName extension : String) :
    nameFor? (lower fileName) extension = (nameFor? fileName extension).map lower := by
  have hchar : ∀ c : Char, (if isWordChar c.toLower then c.toLower else '_') =
      (if isWordChar c then c else '_').toLower := by
    intro c
    rw [isWordChar_toLower]
    split_ifs
    · rfl
    · decide
  have hname : (stem (lower fileName) extension).toList.map
      (fun c => if isWordChar c then c else '_') =
        ((stem fileName extension).toList.map fun c => if isWordChar c then c else '_').map
          Char.toLower := by
    simp only [stem_lower, toList_lower, List.map_map, Function.comp_def, hchar]
  rw [nameFor?, nameFor?, hname]
  cases (stem fileName extension).toList.map fun c => if isWordChar c then c else '_' with
  | nil => rfl
  | cons first rest =>
      simp only [List.map_cons, isDigit_toLower, Option.map_some]
      split_ifs <;> simp [lower]

end Table

namespace Cache

theorem keyOf?_congr (extension : String) {first second : Change}
    (h : lower first.fileName = lower second.fileName) :
    keyOf? extension first = keyOf? extension second := by
  rw [keyOf?, keyOf?, ← nameFor?_lower, h, nameFor?_lower]

/-! ### Names of tables -/

section Names

variable (cache : Cache) {name other : String} (h : lower name = lower other)
include h

theorem descriptor?_congr (tree : Tree) :
    cache.descriptor? tree name = cache.descriptor? tree other := by
  simp only [descriptor?, entry?_congr _ h]

theorem sourcePath?_congr : cache.sourcePath? name = cache.sourcePath? other := by
  simp only [sourcePath?, entry?_congr _ h]

end Names

/-- A report with one name in the place of every other. -/
def Report.spelled (report : Report) (name : String) : Report :=
  ⟨report.reloaded.map fun loaded => (name, loaded.2),
    report.failed.map fun failed => (name, failed.2)⟩

/-- To load a table under another spelling of its name is the same load, reported under that
spelling. -/
theorem ensureFresh_of_lower_eq (cache : Cache) (tree : Tree) {name other : String}
    (h : lower name = lower other) :
    cache.ensureFresh tree [other] =
      ((cache.ensureFresh tree [name]).1.spelled other, (cache.ensureFresh tree [name]).2) := by
  cases hdirty : cache.isDirty name with
  | false =>
      have hsingle : ∀ text : String, nameSet [text] = [text] := fun _ => rfl
      have hother : cache.isDirty other = false := by rw [← isDirty_of_lower_eq cache h, hdirty]
      rw [ensureFresh, ensureFresh, hsingle, hsingle, refreshEach_cons_of_clean hdirty,
        refreshEach_cons_of_clean hother]
      rfl
  | true =>
      have hother : cache.isDirty other = true := by rw [← isDirty_of_lower_eq cache h, hdirty]
      rw [ensureFresh_singleton hdirty, ensureFresh_singleton hother,
        reload_of_lower_eq cache h hdirty]
      cases (cache.reload tree other).1 <;> rfl

/-! ### Changes -/

/-- Once a change has been taken note of, a change whose file name differs in letter case only marks
the table that is there. -/
theorem handleChange_of_noted {cache : Cache} {tree : Tree} {first second : Change}
    (h : lower first.fileName = lower second.fileName) {outcome : ChangeOutcome}
    (houtcome : (cache.handleChange tree first).1 = .ok outcome) (hne : outcome ≠ .skipped)
    (later : Tree) : ∃ key entry, keyOf? cache.extension first = some key ∧
      (cache.handleChange tree first).2.entries.find? key = some entry ∧
      (cache.handleChange tree first).2.handleChange later second =
        (.ok .markedDirty, (cache.handleChange tree first).2.withMark key entry second.path) := by
  have hextension := (frame_handleChange cache tree first).extension
  cases hfirst : nameFor? first.fileName cache.extension with
  | none =>
      rw [handleChange_of_unnamed hfirst] at houtcome
      exact absurd (Except.ok.inj houtcome).symm hne
  | some name =>
      have hkey := keyOf?_of_name hfirst
      obtain ⟨entry, hentry⟩ := exists_entry_of_noted hkey houtcome hne
      rw [keyOf?_congr cache.extension h, ← hextension, keyOf?, Option.map_eq_some_iff] at hkey
      obtain ⟨other, hsecond, hother⟩ := hkey
      refine ⟨lower name, entry, keyOf?_of_name hfirst, hentry, ?_⟩
      rw [handleChange_of_known hsecond (hother ▸ hentry), hother]

/-! ### Everything together -/

/-- What a cache makes of texts and names that differ in letter case only. -/
structure CaseBlind (cache : Cache) : Prop where
  planned : ∀ matching tree query other, lower query = lower other →
    (cache.withMatching matching).plan tree query = (cache.withMatching matching).plan tree other
  found : ∀ tree name other, lower name = lower other →
    cache.descriptor? tree name = cache.descriptor? tree other ∧
      cache.sourcePath? name = cache.sourcePath? other
  refreshed : ∀ tree name other, lower name = lower other → cache.ensureFresh tree [other] =
    ((cache.ensureFresh tree [name]).1.spelled other, (cache.ensureFresh tree [name]).2)
  refreshedAll : ∀ tree names others,
    (∀ key, key ∈ names.map lower ↔ key ∈ others.map lower) → ∀ key,
      AgreesAt key (cache.ensureFresh tree names).2 (cache.ensureFresh tree others).2
  addressed : ∀ first second : Change, lower first.fileName = lower second.fileName →
    keyOf? cache.extension first = keyOf? cache.extension second
  /-- A change is about the table under its key and no other. -/
  alone : ∀ tree change key, keyOf? cache.extension change ≠ some key →
    AgreesAt key cache (cache.handleChange tree change).2
  marked : ∀ tree first second outcome, lower first.fileName = lower second.fileName →
    (cache.handleChange tree first).1 = .ok outcome → outcome ≠ .skipped → ∀ later,
      ∃ key entry, keyOf? cache.extension first = some key ∧
        (cache.handleChange tree first).2.entries.find? key = some entry ∧
        (cache.handleChange tree first).2.handleChange later second =
          (.ok .markedDirty, (cache.handleChange tree first).2.withMark key entry second.path)
  unique : ∀ key other entry found, cache.entries.find? key = some entry →
    cache.entries.find? other = some found → lower entry.table.name = lower found.table.name →
      key = other ∧ entry = found

theorem caseBlind_of_reachable {cache : Cache} (hreachable : cache.Reachable) :
    CaseBlind cache where
  planned := fun matching tree _ _ h => plan_congr (cache.withMatching matching) tree h
  found := fun tree _ _ h => ⟨descriptor?_congr cache h tree, sourcePath?_congr cache h⟩
  refreshed := fun tree _ _ h => ensureFresh_of_lower_eq cache tree h
  refreshedAll := by
    intro tree names others hsame key
    have hkeys : key ∈ (nameSet others).map lower ↔ key ∈ (nameSet names).map lower := by
      simpa only [List.mem_map, mem_nameSet] using (hsame key).symm
    exact (refreshEach_of_same_keys hreachable.wellFormed tree hkeys).1
  addressed := fun _ _ h => keyOf?_congr cache.extension h
  alone := fun tree _ _ hne => agreesAt_handleChange_of_ne cache tree hne
  marked := fun _ _ _ _ h houtcome hne later => handleChange_of_noted h houtcome hne later
  unique := by
    intro key other entry found hentry hfound hname
    have hcache := hreachable.wellFormed
    obtain rfl : key = other := by
      rw [(hcache key entry hentry).1, (hcache other found hfound).1, hname]
    exact ⟨rfl, Option.some.inj (hentry.symm.trans hfound)⟩

/-- The cache of one file, once its change has been taken note of. -/
theorem caseBlind_of_one_file : (ofOneFile .inMemory .identifiers).Reachable ∧
    CaseBlind (ofOneFile .inMemory .identifiers) :=
  have hreachable := reachable_ofOneFile .inMemory .identifiers rfl
  ⟨hreachable, caseBlind_of_reachable hreachable⟩

end Cache

end LiveTables
