import LiveTables.Proofs.FileNames
import LiveTables.Proofs.Naming
import LiveTables.Proofs.PollHistory
import LiveTables.Proofs.QuotedNames
import LiveTables.Proofs.RepairedText
import LiveTables.Watch.EntryName

/-!
# Names of watched files and of their tables

Whether a directory entry is watched is told from the bytes of its name, and which table it has from
the text that these are read as. No other byte is read as a dot, so both cut a name at the same
place, and a watched file always has a table: it is named after what stands before the last dot.
That name is one word of a query, bare or quoted.
-/

namespace LiveTables

open LiveTables.Files LiveTables.Sql LiveTables.Table LiveTables.Text LiveTables.Watch

/-! ### Names cut at their last dot -/

namespace Text

section LastMark

theorem exists_last_mark {α : Type} {mark : α} {text : List α} (h : mark ∈ text) :
    ∃ before after, text = before ++ mark :: after ∧ mark ∉ after := by
  obtain ⟨after, before, hreverse, hnone⟩ := List.eq_append_cons_of_mem (List.mem_reverse.2 h)
  refine ⟨before.reverse, after.reverse, ?_, by simpa using hnone⟩
  simpa using congrArg List.reverse hreverse

variable {α : Type} [DecidableEq α] {mark : α} {before after text : List α}

theorem span_reverse_of_last (h : mark ∉ after) :
    (before ++ mark :: after).reverse.span (· != mark) =
      (after.reverse, mark :: before.reverse) := by
  have hrun : ∀ c ∈ after.reverse, (c != mark) = true := by
    intro c hc
    rw [bne_iff_ne]
    exact ne_of_mem_of_not_mem (List.mem_reverse.1 hc) h
  have hmark : ∀ c, (mark :: before.reverse).head? = some c → (c != mark) = false := by
    simp
  rw [List.reverse_append, List.reverse_cons, List.append_assoc, List.singleton_append,
    List.span_eq_takeWhile_dropWhile, takeWhile_append_of_head hrun hmark,
    dropWhile_append_of_head hrun hmark]

theorem span_reverse_of_none (h : mark ∉ text) :
    text.reverse.span (· != mark) = (text.reverse, []) := by
  have hrun : ∀ c ∈ text.reverse, (c != mark) = true := by
    intro c hc
    rw [bne_iff_ne]
    exact ne_of_mem_of_not_mem (List.mem_reverse.1 hc) h
  rw [List.span_eq_takeWhile_dropWhile, List.takeWhile_eq_self_iff.2 hrun,
    List.dropWhile_eq_nil_iff.2 hrun]

end LastMark

end Text

namespace Files.Path

theorem splitLastDot_append (before : String) {after : String} (h : '.' ∉ after.toList) :
    splitLastDot (before ++ "." ++ after) = some (before, after) := by
  have htext : (before ++ "." ++ after).toList = before.toList ++ '.' :: after.toList := by simp
  simp only [splitLastDot, htext, span_reverse_of_last h, List.reverse_reverse,
    String.ofList_toList]

theorem splitLastDot_eq_none {text : String} (h : '.' ∉ text.toList) :
    splitLastDot text = none := by
  simp only [splitLastDot, span_reverse_of_none h]

end Files.Path

namespace Watch.EntryName

theorem splitLastDot_append (stem : List UInt8) {after : List UInt8} (h : dot ∉ after) :
    splitLastDot (stem ++ dot :: after) = some (stem, after) := by
  simp only [splitLastDot, span_reverse_of_last h, List.reverse_reverse]

theorem splitLastDot_eq_none {name : List UInt8} (h : dot ∉ name) : splitLastDot name = none := by
  simp only [splitLastDot, span_reverse_of_none h]

theorem exists_stem_of_extension? {name after : List UInt8} (h : extension? name = some after) :
    ∃ stem, stem ≠ [] ∧ name = stem ++ dot :: after ∧ dot ∉ after := by
  by_cases hdot : dot ∈ name
  · obtain ⟨stem, rest, rfl, hnone⟩ := exists_last_mark hdot
    simp only [extension?, splitLastDot_append stem hnone] at h
    split_ifs at h with hparent hempty
    obtain rfl := Option.some.inj h
    exact ⟨stem, by simpa using hempty, rfl, hnone⟩
  · simp [extension?, splitLastDot_eq_none hdot] at h

end Watch.EntryName

namespace Text

open Watch.EntryName

theorem dot_notMem_repairUtf8 {bytes : List UInt8} (h : dot ∉ bytes) :
    '.' ∉ (repairUtf8 bytes).toList := by
  intro hmem
  rw [repairUtf8, String.toList_ofList] at hmem
  exact h (mem_of_mem_repairFrom (by decide) (by decide) hmem)

theorem repairUtf8_append_dot (stem after : List UInt8) :
    repairUtf8 (stem ++ dot :: after) = repairUtf8 stem ++ "." ++ repairUtf8 after := by
  apply String.toList_injective
  rw [repairUtf8, repairFrom_append_ascii stem (by decide) after]
  simp [repairUtf8]
  rfl

end Text

/-! ### Watched names that are text -/

namespace Text

theorem encodeUtf8_append_dot (before after : String) :
    encodeUtf8 (before ++ "." ++ after) =
      encodeUtf8 before ++ EntryName.dot :: encodeUtf8 after := by
  have hdot : String.utf8EncodeChar '.' = [EntryName.dot] := rfl
  simp [encodeUtf8_eq, hdot]

theorem dot_notMem_encodeUtf8 {text : String} (h : '.' ∉ text.toList) :
    EntryName.dot ∉ encodeUtf8 text := by
  intro hmem
  obtain ⟨stem, after, hsplit⟩ := List.append_of_mem hmem
  have htext := repairUtf8_encodeUtf8 text
  rw [hsplit, repairUtf8_append_dot] at htext
  exact h (by simp [← htext])

theorem encodeUtf8_injective : Function.Injective encodeUtf8 :=
  Function.LeftInverse.injective repairUtf8_encodeUtf8

theorem encodeUtf8_eq_nil_iff {text : String} : encodeUtf8 text = [] ↔ text = "" := by
  have hempty : encodeUtf8 "" = [] := by
    rw [encodeUtf8_eq]
    rfl
  rw [← hempty]
  exact encodeUtf8_injective.eq_iff

end Text

namespace Watch

theorem Path.extension?_of_isFileName {name : String} (h : Path.IsFileName name) :
    Path.extension? name = (Path.splitLastDot name).bind fun (stem, after) =>
      if stem.isEmpty then none else some after := by
  rw [Path.extension?, h.fileName?_self]
  rfl

/-- A name that is text has the same extension by its bytes and by its characters. -/
theorem extension?_encodeUtf8 {name : String} (hslash : '/' ∉ name.toList) :
    EntryName.extension? (encodeUtf8 name) = (Path.extension? name).map encodeUtf8 := by
  by_cases hfile : Path.IsFileName name
  · have hparent : (encodeUtf8 name == [EntryName.dot, EntryName.dot]) = false := by
      rw [beq_eq_false_iff_ne]
      have hbytes : encodeUtf8 ".." = [EntryName.dot, EntryName.dot] := by
        rw [encodeUtf8_eq]
        rfl
      rw [← hbytes]
      exact encodeUtf8_injective.ne hfile.notParent
    rw [Path.extension?_of_isFileName hfile, EntryName.extension?, hparent]
    by_cases hdot : '.' ∈ name.toList
    · obtain ⟨before, after, hname, hnone⟩ := exists_last_mark hdot
      obtain rfl : name = String.ofList before ++ "." ++ String.ofList after := by
        apply String.toList_injective
        simp [hname]
      have hafter : '.' ∉ (String.ofList after).toList := by simpa using hnone
      rw [encodeUtf8_append_dot, EntryName.splitLastDot_append _ (dot_notMem_encodeUtf8 hafter),
        Path.splitLastDot_append _ hafter]
      by_cases hbefore : String.ofList before = ""
      · simp [hbefore, encodeUtf8_eq_nil_iff.2]
      · have hbytes : encodeUtf8 (String.ofList before) ≠ [] := mt encodeUtf8_eq_nil_iff.1 hbefore
        simp [hbefore, hbytes]
    · rw [EntryName.splitLastDot_eq_none (dot_notMem_encodeUtf8 hdot),
        Path.splitLastDot_eq_none hdot]
      rfl
  -- neither the empty text nor `.` and `..` have an extension
  · obtain rfl | rfl | rfl := Path.eq_of_not_isFileName hslash hfile <;> rw [encodeUtf8_eq] <;> rfl

theorem watches_eq_hasExtension (extension : String) {name : String} (hslash : '/' ∉ name.toList) :
    watches extension (encodeUtf8 name) = hasExtension (normalExtension extension) name := by
  rw [watches, hasExtension, extension?_encodeUtf8 hslash]
  cases Path.extension? name with
  | none => rfl
  | some other => simp only [Option.map_some, repairUtf8_encodeUtf8]

end Watch

/-! ### The name of a table -/

namespace Table

/-- The ASCII letters and digits and the underscore. -/
def IsNameChar (c : Char) : Prop :=
  ('A' ≤ c ∧ c ≤ 'Z') ∨ ('a' ≤ c ∧ c ≤ 'z') ∨ ('0' ≤ c ∧ c ≤ '9') ∨ c = '_'

theorem isWordChar_iff {c : Char} : isWordChar c = true ↔ IsNameChar c := by
  simp [isWordChar, IsNameChar, Char.isAlphanum, Char.isAlpha, Char.isUpper, Char.isLower,
    Char.isDigit, Char.le_def]
  tauto

/-- How a character of a file name stands in the name of the table. -/
inductive Shown : Char → Char → Prop
  | kept {c : Char} (h : IsNameChar c) : Shown c c
  | replaced {c : Char} (h : ¬ IsNameChar c) : Shown c '_'

/-- A name made from the part of a file name before the last dot, character by character. -/
inductive NamedAfter (stem : List Char) : List Char → Prop
  | plain {first : Char} {rest : List Char} (hshown : List.Forall₂ Shown stem (first :: rest))
      (hdigit : ¬ ('0' ≤ first ∧ first ≤ '9')) : NamedAfter stem (first :: rest)
  | digit {first : Char} {rest : List Char} (hshown : List.Forall₂ Shown stem (first :: rest))
      (hdigit : '0' ≤ first ∧ first ≤ '9') : NamedAfter stem ('t' :: '_' :: first :: rest)

theorem shown_underscored (c : Char) : Shown c (if isWordChar c then c else '_') := by
  split_ifs with h
  · exact .kept (isWordChar_iff.1 h)
  · exact .replaced (mt isWordChar_iff.2 h)

theorem isDigit_iff {c : Char} : c.isDigit = true ↔ '0' ≤ c ∧ c ≤ '9' := by
  simp [Char.isDigit, Char.le_def]

theorem exists_nameFor? {fileName extension : String} (hstem : stem fileName extension ≠ "") :
    ∃ table, nameFor? fileName extension = some table ∧
      NamedAfter (stem fileName extension).toList table.toList := by
  have hshown : List.Forall₂ Shown (stem fileName extension).toList
      ((stem fileName extension).toList.map fun c => if isWordChar c then c else '_') := by
    rw [List.forall₂_map_right_iff, List.forall₂_same]
    exact fun c _ => shown_underscored c
  rw [nameFor?]
  cases hname : (stem fileName extension).toList.map fun c => if isWordChar c then c else '_' with
  | nil => exact absurd (by simpa using hname) hstem
  | cons first rest =>
      rw [hname] at hshown
      refine ⟨_, rfl, ?_⟩
      rw [String.toList_ofList]
      split_ifs with hdigit
      · exact .digit hshown (isDigit_iff.1 hdigit)
      · exact .plain hshown (mt isDigit_iff.2 hdigit)

theorem stem_append {before after extension : String} (hdot : '.' ∉ after.toList)
    (hafter : equalIgnoringCase after extension = true) :
    stem (before ++ "." ++ after) extension = before := by
  simp only [stem, Path.splitLastDot_append before hdot, hafter, ↓reduceIte]

end Table

/-! ### Identifiers as words of a query -/

namespace Sql

theorem doubleQuotes_of_notMem {name : List Char} (h : '"' ∉ name) : doubleQuotes name = name := by
  induction name with
  | nil => rfl
  | cons c name ih =>
      rw [List.mem_cons, not_or] at h
      rw [doubleQuotes, if_neg (Ne.symm h.1), ih h.2]

theorem words_self {name : List Char} (hne : name ≠ []) (hword : ∀ c ∈ name, isWordChar c = true) :
    words name = [name] := by
  have hrun : wordsFrom [] (name ++ []) = wordsFrom (name.reverse ++ []) [] :=
    wordsFrom_append hword
  rw [List.append_nil] at hrun
  simp [words, hrun, wordsFrom, hne]

end Sql

namespace Table.IsIdentifier

variable {name : String} (h : IsIdentifier name)
include h

theorem quote_notMem : '"' ∉ name.toList :=
  fun hquote => absurd (h.isWordChar hquote) (by decide)

theorem toList_ne_nil : name.toList ≠ [] := by
  obtain ⟨first, rest, hlist, -⟩ := h
  simp [hlist]

theorem quote_eq : quote name = "\"" ++ name ++ "\"" := by
  apply String.toList_injective
  simp [quote, doubleQuotes_of_notMem h.quote_notMem]

theorem identifierWords_eq : identifierWords name = [lower name] := by
  have hmask : mask name = name := by
    have hcode : maskFrom .code (name.toList ++ []) = name.toList ++ maskFrom .code [] :=
      maskFrom_name fun c hc => continuesName_of_isWordChar (h.isWordChar hc)
    rw [List.append_nil] at hcode
    simp [mask, hcode, maskFrom]
  have hwords := words_self h.toList_ne_nil fun c hc => h.isWordChar hc
  rw [identifierWords, hmask, hwords]
  simp [nameSet, insertName]

theorem identifierWords_quote : identifierWords (quote name) = [lower name] := by
  have hmask : (mask (quote name)).toList = ' ' :: (name.toList ++ [' ']) := by
    have hquoted := toList_mask_quote_append name ""
    rwa [String.append_empty, blankQuotes_of_notMem h.quote_notMem] at hquoted
  have hspace : Text.isWordChar ' ' = false := by decide
  have hwords : words (mask (quote name)).toList = [name.toList] := by
    rw [hmask, words, wordsFrom_of_break hspace, wordsFrom_append fun c hc => h.isWordChar hc]
    simp [wordsFrom, hspace, h.toList_ne_nil]
  rw [identifierWords, hwords]
  simp [nameSet, insertName]

end Table.IsIdentifier

namespace Watch

theorem normalExtension_idem (extension : String) :
    normalExtension (normalExtension extension) = normalExtension extension := by
  set rest := extension.toList.dropWhile (· == '.') with hrest
  have hdots : (rest.map Char.toLower).dropWhile (· == '.') = rest.map Char.toLower := by
    cases hcases : rest with
    | nil => rfl
    | cons c rest =>
        have hnot := List.head?_dropWhile_not (· == '.') extension.toList
        rw [← hrest, hcases] at hnot
        have hc : c ≠ '.' := by simpa using hnot
        have hlower : c.toLower ≠ '.' := mt (toLower_eq_iff (by decide)).1 hc
        rw [List.map_cons, List.dropWhile_cons_of_neg (by simpa using hlower)]
  have hlower : lower (normalExtension extension) = normalExtension extension := lower_lower _
  have hchars : (normalExtension extension).toList = rest.map Char.toLower := by
    rw [normalExtension, toList_lower, String.toList_ofList]
  rw [normalExtension, hchars, hdots, ← hchars, String.ofList_toList, hlower]

end Watch

/-! ### Watched files -/

namespace Watch

/-- The name of the table that a watched entry gets. -/
structure TableOf (name : List UInt8) (table : String) : Prop where
  named : ∃ stem after, name = stem ++ EntryName.dot :: after ∧ EntryName.dot ∉ after ∧
    repairUtf8 name = repairUtf8 stem ++ "." ++ repairUtf8 after ∧
    '.' ∉ (repairUtf8 after).toList ∧ NamedAfter (repairUtf8 stem).toList table.toList
  identifier : IsIdentifier table
  quoted : quote table = "\"" ++ table ++ "\""
  words : identifierWords table = [lower table]
  quotedWords : identifierWords (quote table) = [lower table]

theorem exists_tableOf {extension : String} {name : List UInt8}
    (h : watches extension name = true) : ∃ table,
      nameFor? (repairUtf8 name) (normalExtension extension) = some table ∧ TableOf name table := by
  rw [watches] at h
  cases hextension : EntryName.extension? name with
  | none => simp [hextension] at h
  | some after =>
      simp only [hextension] at h
      obtain ⟨stem, hne, rfl, hdot⟩ := EntryName.exists_stem_of_extension? hextension
      have hstem : Table.stem (repairUtf8 (stem ++ EntryName.dot :: after))
          (normalExtension extension) = repairUtf8 stem := by
        rw [repairUtf8_append_dot, stem_append (dot_notMem_repairUtf8 hdot) h]
      have hnonempty : repairUtf8 stem ≠ "" := by
        intro hempty
        have hlist : repairFrom stem = [] := by
          simpa [repairUtf8] using congrArg String.toList hempty
        exact hne (repairFrom_eq_nil_iff.1 hlist)
      obtain ⟨table, htable, hnamed⟩ := exists_nameFor? (by rwa [hstem])
      rw [hstem] at hnamed
      have hidentifier := isIdentifier_of_nameFor? htable
      exact ⟨table, htable, ⟨stem, after, rfl, hdot, repairUtf8_append_dot stem after,
        dot_notMem_repairUtf8 hdot, hnamed⟩, hidentifier, hidentifier.quote_eq,
        hidentifier.identifierWords_eq, hidentifier.identifierWords_quote⟩

/-- A change carries the name of the entry that it is about, and that is a watched one. -/
theorem watches_of_listing {tree : Tree} {directory extension : String} {files : List Listed}
    (h : (Poller.new directory extension).listing tree = .ok files) {file : Listed}
    (hfile : file ∈ files) (modified : Int) :
    watches extension (encodeUtf8 (changeAt file.1 modified).fileName) = true := by
  have hstill : (View.still tree).listing directory (normalExtension extension) = .ok files :=
    (View.listing_still tree).trans h
  obtain ⟨⟨names, name, hnames, hname, hwatched, hpath, -⟩, -⟩ :=
    ((View.listing_eq_ok hstill).2 file.1 file.2).1 hfile
  have hslash := (Tree.list_eq_ok hnames).2 name hname
  have hproper : Path.IsFileName name := by
    by_contra hfile
    obtain rfl | rfl | rfl := Path.eq_of_not_isFileName hslash hfile <;> cases hwatched
  rw [changeAt, hpath, hproper.fileName?_join, Option.getD_some, watches_eq_hasExtension _ hslash]
  exact hwatched

/-- Watched entries have tables, the changes of listed files are about watched entries, and an
extension is not changed by making it normal once more. -/
structure NamesFit (extension : String) : Prop where
  watched : ∀ name, watches extension name = true → ∃ table,
    nameFor? (repairUtf8 name) (normalExtension extension) = some table ∧ TableOf name table
  listed : ∀ tree directory files,
    (Poller.new directory extension).listing tree = .ok files → ∀ file ∈ files, ∀ modified,
      watches extension (encodeUtf8 (changeAt file.1 modified).fileName) = true ∧ ∃ table,
        nameFor? (changeAt file.1 modified).fileName (normalExtension extension) = some table ∧
          TableOf (encodeUtf8 (changeAt file.1 modified).fileName) table
  text : ∀ name : String, '/' ∉ name.toList →
    watches extension (encodeUtf8 name) = hasExtension (normalExtension extension) name
  normal : normalExtension (normalExtension extension) = normalExtension extension

/-- Every directory entry that is watched has a table, and its name can be told in a query. -/
theorem namesFit (extension : String) : NamesFit extension where
  watched := fun _ h => exists_tableOf h
  listed := by
    intro tree directory files h file hfile modified
    have hwatched := watches_of_listing h hfile modified
    obtain ⟨table, htable, hnamed⟩ := exists_tableOf hwatched
    rw [repairUtf8_encodeUtf8] at htable
    exact ⟨hwatched, table, htable, hnamed⟩
  text := fun _ h => watches_eq_hasExtension extension h
  normal := normalExtension_idem extension

end Watch

end LiveTables
