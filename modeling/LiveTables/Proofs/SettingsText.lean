import LiveTables.Proofs.DocumentLines
import LiveTables.Settings.Document

/-!
# Settings as text and back

The text of settings is a document of plain lines, one for each field that is there, and reading it
gives the settings back, valid or not. Settings have no text exactly when the poll interval is no
integer of 64 bits.
-/

namespace LiveTables.Settings

open LiveTables.Number LiveTables.Toml

/-! ### Lines -/

def quotedLine (key value : String) : Line :=
  ⟨key, quoteText value.toList, .string value⟩

def booleanLine (key : String) (value : Bool) : Line :=
  ⟨key, (if value then "true" else "false").toList, .boolean value⟩

def naturalLine (key : String) (value : Nat) : Line :=
  ⟨key, (toString value).toList, .integer value⟩

/-- The lines of a settings file. -/
def lines (settings : Settings) : List Line :=
  [quotedLine "directory" settings.directory,
    quotedLine "extension" settings.extension,
    quotedLine "delimiter" (String.ofList [settings.delimiter]),
    booleanLine "has_headers" settings.hasHeaders,
    naturalLine "poll_interval_ms" settings.pollInterval] ++
  (settings.databasePath.map (quotedLine "database_path")).toList ++
  [quotedLine "refresh_matching" settings.matching.name]

section Plain

variable {key : String} (hchars : key.toList.all isKeyChar = true) (hfirst : key.toList ≠ [])
include hchars hfirst

theorem plain_quotedLine (value : String) : (quotedLine key value).Plain where
  keyChars := List.all_eq_true.1 hchars
  keyFirst := hfirst
  valueFirst := by
    intro c hc
    obtain ⟨more, hmore | hmore⟩ := quoteText_eq_cons value.toList <;>
      simp [quotedLine, hmore] at hc <;> simp [← hc, isBlank]
  reads fuel rest := by simp [quotedLine, readValue_quoteText]

theorem plain_booleanLine (value : Bool) : (booleanLine key value).Plain where
  keyChars := List.all_eq_true.1 hchars
  keyFirst := hfirst
  valueFirst := by cases value <;> simp [booleanLine, isBlank]
  reads fuel rest := by
    cases value with
    | false =>
        have hvalue : ofScalar? "false".toList = some (.boolean false) := rfl
        have hword : "false".toList.all isScalarChar = true := by decide
        exact readValue_scalar hvalue (by decide) (List.all_eq_true.1 hword) fuel rest
    | true =>
        have hvalue : ofScalar? "true".toList = some (.boolean true) := rfl
        have hword : "true".toList.all isScalarChar = true := by decide
        exact readValue_scalar hvalue (by decide) (List.all_eq_true.1 hword) fuel rest

theorem plain_naturalLine {value : Nat} (hword : isWord value = true) :
    (naturalLine key value).Plain where
  keyChars := List.all_eq_true.1 hchars
  keyFirst := hfirst
  valueFirst c hc := by
    have hdigit : isDigit c = true := isDigit_of_mem_digits (List.mem_of_mem_head? hc)
    simp only [isBlank, Bool.or_eq_false_iff, beq_eq_false_iff_ne]
    constructor <;> rintro rfl <;> cases hdigit
  reads fuel rest := by
    apply readValue_scalar (ofScalar?_toString hword) (digits_ne_nil value)
    intro c hc
    have hdigit : c.isDigit = true := isDigit_of_mem_digits hc
    simp [isScalarChar, Char.isAlphanum, hdigit]

end Plain

theorem plain_lines {settings : Settings} (hword : isWord settings.pollInterval = true) :
    ∀ line ∈ settings.lines, line.Plain := by
  intro line hline
  simp only [lines, List.mem_append, List.mem_cons, List.not_mem_nil, or_false,
    Option.mem_toList, Option.map_eq_some_iff] at hline
  rcases hline with ((rfl | rfl | rfl | rfl | rfl) | ⟨path, -, rfl⟩) | rfl
  · exact plain_quotedLine (by decide) (by decide) _
  · exact plain_quotedLine (by decide) (by decide) _
  · exact plain_quotedLine (by decide) (by decide) _
  · exact plain_booleanLine (by decide) (by decide) _
  · exact plain_naturalLine (by decide) (by decide) hword
  · exact plain_quotedLine (by decide) (by decide) _
  · exact plain_quotedLine (by decide) (by decide) _

theorem nodup_keys (settings : Settings) : (settings.lines.map Line.key).Nodup := by
  rcases settings with ⟨_, _, _, _, _, _ | path, _⟩ <;>
    simp [lines, quotedLine, booleanLine, naturalLine]

theorem toList_textLine (key value : String) :
    (textLine key value).toList = (quotedLine key value).text := by
  simp [textLine, Line.text, quotedLine]

theorem toText_of_isWord {settings : Settings} (hword : isWord settings.pollInterval = true) :
    settings.toText = .ok (String.ofList (settings.lines.flatMap Line.text)) := by
  rw [toText, if_neg (by simp [hword])]
  congr 1
  apply String.toList_injective
  cases hpath : settings.databasePath <;>
    simp [lines, hpath, toList_textLine, Line.text, booleanLine, naturalLine]

/-- Settings have a text exactly when the poll interval is an integer of 64 bits. -/
theorem exists_toText_iff (settings : Settings) :
    (∃ text, settings.toText = .ok text) ↔ isWord settings.pollInterval = true := by
  by_cases hword : isWord settings.pollInterval = true
  · simp [toText_of_isWord hword, hword]
  · simp [toText, hword]

theorem ofEntries?_lines (settings : Settings) :
    ofEntries? (settings.lines.map Line.entry) = some settings := by
  rcases settings with ⟨directory, extension, delimiter, hasHeaders, pollInterval,
    _ | path, _ | _⟩ <;>
    simp [lines, quotedLine, booleanLine, naturalLine, Line.entry, ofEntries?, field,
      List.lookup_cons, stringOf?, charOf?, booleanOf?, naturalOf?, matchingOf?, Matching.name,
      Matching.ofName?]

/-- Reading the text of settings gives the settings. -/
theorem ofText_toText {settings : Settings} {text : String} (h : settings.toText = .ok text) :
    ofText text = .ok settings := by
  have hword := (exists_toText_iff settings).1 ⟨text, h⟩
  have htext : text.toList = settings.lines.flatMap Line.text := by
    rw [toText_of_isWord hword, Except.ok.injEq] at h
    rw [← h, String.toList_ofList]
  rw [ofText, htext, readDocument_lines (plain_lines hword) (nodup_keys settings),
    Option.bind_some, ofEntries?_lines]

end LiveTables.Settings
