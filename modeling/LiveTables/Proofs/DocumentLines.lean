import LiveTables.Proofs.Numerals
import LiveTables.Proofs.QuotedText
import LiveTables.Proofs.TextRuns
import LiveTables.Toml.Document

/-!
# Documents of plain lines

A document whose lines each give a plain key a written value is read as those keys with those
values, in their order. Text between quotes, truth values and whole numbers are written values.
-/

namespace LiveTables.Toml

open LiveTables.Number

/-- A line of a document: its key, the value as it stands there, and the value that is meant. -/
structure Line where
  key : String
  written : List Char
  value : Value

namespace Line

def text (line : Line) : List Char := line.key.toList ++ " = ".toList ++ line.written ++ ['\n']

def entry (line : Line) : String × Value := (line.key, line.value)

/-- A line that is read as it is meant, whatever lines come behind it. -/
structure Plain (line : Line) : Prop where
  keyChars : ∀ c ∈ line.key.toList, isKeyChar c = true
  keyFirst : line.key.toList ≠ []
  valueFirst : ∀ c, line.written.head? = some c → isBlank c = false
  reads : ∀ fuel rest, readValue (fuel + 1) (line.written ++ '\n' :: rest) =
    some (line.value, '\n' :: rest)

end Line

/-- None of the characters that mean something outside a key stands in a plain key. -/
theorem isKeyChar_eq_false {c : Char}
    (h : c ∈ [' ', '\t', '\n', '\r', '#', '[', '"', '\'', '.', '=']) : isKeyChar c = false := by
  have hmarks :
      [' ', '\t', '\n', '\r', '#', '[', '"', '\'', '.', '='].all (!isKeyChar ·) = true := by
    decide
  simpa using List.all_eq_true.1 hmarks c h

/-! ### Keys -/

section Keys

variable {key : List Char} (hchars : ∀ c ∈ key, isKeyChar c = true) (hfirst : key ≠ [])
include hchars hfirst

theorem exists_key_first : ∃ c more, key = c :: more ∧ isKeyChar c = true :=
  have ⟨c, more, hkey⟩ := List.exists_cons_of_ne_nil hfirst
  ⟨c, more, hkey, hchars c (hkey ▸ List.mem_cons_self)⟩

theorem skipBlanks_key (rest : List Char) : skipBlanks (key ++ rest) = key ++ rest := by
  obtain ⟨c, more, rfl, hc⟩ := exists_key_first hchars hfirst
  have hblank : isBlank c = false := by
    simp only [isBlank, Bool.or_eq_false_iff, beq_eq_false_iff_ne]
    constructor <;> rintro rfl <;> cases hc
  simp [skipBlanks, hblank]

theorem readKeyPart_key (rest : List Char) :
    readKeyPart (key ++ ' ' :: rest) = some (String.ofList key, ' ' :: rest) := by
  have hend : ∀ c, (' ' :: rest).head? = some c → isKeyChar c = false := by
    rintro _ ⟨⟩
    exact isKeyChar_eq_false (by simp)
  have htake := Text.takeWhile_append_of_head hchars hend
  have hdrop := Text.dropWhile_append_of_head hchars hend
  obtain ⟨c, more, rfl, hc⟩ := exists_key_first hchars hfirst
  have hdouble : c ≠ '"' := by rintro rfl; cases hc
  have hsingle : c ≠ '\'' := by rintro rfl; cases hc
  rw [List.cons_append] at htake hdrop ⊢
  rw [readKeyPart, htake, hdrop]
  · rfl
  · simp [hdouble]
  · simp [hsingle]

theorem readKey_key (fuel : Nat) (rest : List Char) :
    readKey (fuel + 1) (key ++ ' ' :: '=' :: rest) = some ([], String.ofList key, '=' :: rest) := by
  have hblanks : skipBlanks (' ' :: '=' :: rest) = '=' :: rest := by simp [skipBlanks, isBlank]
  simp [readKey, skipBlanks_key hchars hfirst, readKeyPart_key hchars hfirst, hblanks]

/-- A key is no end of a line. -/
theorem endLine_key (rest : List Char) : endLine false (key ++ rest) = none := by
  obtain ⟨c, more, rfl, hc⟩ := exists_key_first hchars hfirst
  have hne : ∀ d, isKeyChar d = false → c ≠ d := by
    rintro d hd rfl
    simp [hc] at hd
  have hspace := hne ' ' (isKeyChar_eq_false (by simp))
  have htab := hne '\t' (isKeyChar_eq_false (by simp))
  have hcomment := hne '#' (isKeyChar_eq_false (by simp))
  rw [List.cons_append, endLine]
  · simp [isBlank, hspace, htab, hcomment]
  · simp [hne '\n' (isKeyChar_eq_false (by simp))]
  · simp [hne '\r' (isKeyChar_eq_false (by simp))]

end Keys

/-! ### Lines -/

theorem Draft.add?_plain {entries : Entries} {key : String} (hfree : entries.lookup key = none)
    (value : Value) :
    (Draft.mk entries []).add? [] key value = some ⟨entries ++ [(key, value)], []⟩ := by
  simp [Draft.add?, Entries.updateAt, Entries.addDotted?, Entries.add?, hfree]

theorem skipBlanks_written {written : List Char}
    (hfirst : ∀ c, written.head? = some c → isBlank c = false) (rest : List Char) :
    skipBlanks (' ' :: (written ++ '\n' :: rest)) = written ++ '\n' :: rest := by
  cases written with
  | nil => simp [skipBlanks, isBlank]
  | cons c written =>
      have hspace : isBlank ' ' = true := rfl
      simp [skipBlanks, hspace, hfirst c rfl]

section Lines

variable {line : Line} {entries : Entries}

/-- Reading a plain line adds its key with its value. -/
theorem readLine_text (hplain : line.Plain) (hfree : entries.lookup line.key = none)
    (rest : List Char) :
    readLine ⟨entries, []⟩ (line.text ++ rest) = some (⟨entries ++ [line.entry], []⟩, rest) := by
  have hkeyChars := hplain.keyChars
  have hkeyFirst := hplain.keyFirst
  have htext : line.text ++ rest =
      line.key.toList ++ ' ' :: '=' :: ' ' :: (line.written ++ '\n' :: rest) := by
    simp [Line.text]
  have hvalue : skipBlanks (' ' :: (line.written ++ '\n' :: rest)) = line.written ++ '\n' :: rest :=
    skipBlanks_written hplain.valueFirst rest
  have hend : endLine false ('\n' :: rest) = some rest := rfl
  obtain ⟨c, more, hkey, hc⟩ := exists_key_first hkeyChars hkeyFirst
  have hheader : c ≠ '[' := by rintro rfl; cases hc
  have hread := readKey_key hkeyChars hkeyFirst
    (more ++ ' ' :: '=' :: ' ' :: (line.written ++ '\n' :: rest)).length
    (' ' :: (line.written ++ '\n' :: rest))
  have hopen := endLine_key hkeyChars hkeyFirst
    (' ' :: '=' :: ' ' :: (line.written ++ '\n' :: rest))
  rw [htext, readLine, skipBlanks_key hkeyChars hkeyFirst]
  rw [hkey, List.cons_append] at hread hopen ⊢
  split
  · simp_all
  · simp_all
  · rw [hopen, List.length_cons, hread]
    simp only [Option.bind_eq_bind, Option.bind_some, hvalue, hplain.reads, String.ofList_toList,
      ← hkey]
    rw [Draft.add?_plain hfree, hend]
    rfl

theorem text_ne_nil (line : Line) : line.text ≠ [] := by
  simp [Line.text]

theorem readLines_text {lines : List Line} (hplain : ∀ line ∈ lines, line.Plain)
    (hkeys : (entries.map Prod.fst ++ lines.map Line.key).Nodup) {fuel : Nat}
    (hfuel : lines.length ≤ fuel) :
    readLines fuel ⟨entries, []⟩ (lines.flatMap Line.text) =
      some ⟨entries ++ lines.map Line.entry, []⟩ := by
  induction lines generalizing entries fuel with
  | nil => simp [readLines]
  | cons line lines ih =>
      obtain ⟨fuel, rfl⟩ := Nat.exists_eq_succ_of_ne_zero (by simp at hfuel; omega : fuel ≠ 0)
      have hfree : entries.lookup line.key = none := by
        rw [List.lookup_eq_none_iff]
        intro entry hentry
        have hne := (List.nodup_append.1 hkeys).2.2 entry.1 (List.mem_map_of_mem hentry) line.key
          (by simp)
        simpa using hne.symm
      have hline := readLine_text (hplain line List.mem_cons_self) hfree (lines.flatMap Line.text)
      have hrest := ih (fun other hother => hplain other (List.mem_cons_of_mem _ hother))
        (by simpa [Line.entry] using hkeys : ((entries ++ [line.entry]).map Prod.fst ++ _).Nodup)
        (Nat.le_of_succ_le_succ hfuel)
      rw [List.flatMap_cons, readLines, hline]
      · simpa using hrest
      · simp [text_ne_nil]

theorem length_le_flatMap_text (lines : List Line) :
    lines.length ≤ (lines.flatMap Line.text).length := by
  induction lines with
  | nil => simp
  | cons line lines ih =>
      have hline := List.length_pos_iff.2 (text_ne_nil line)
      simp only [List.flatMap_cons, List.length_append, List.length_cons]
      omega

/-- A document of plain lines with different keys has those keys with their values. -/
theorem readDocument_lines {lines : List Line} (hplain : ∀ line ∈ lines, line.Plain)
    (hkeys : (lines.map Line.key).Nodup) :
    readDocument (lines.flatMap Line.text) = some (lines.map Line.entry) := by
  have hmark : (lines.flatMap Line.text).head? ≠ some '\ufeff' := by
    cases lines with
    | nil => simp
    | cons line lines =>
        have hline := hplain line List.mem_cons_self
        obtain ⟨c, more, hkey, hc⟩ := exists_key_first hline.keyChars hline.keyFirst
        have hne : c ≠ '\ufeff' := by
          rintro rfl
          cases hc
        simpa [Line.text, hkey] using hne
  have hread : readLines (lines.flatMap Line.text).length ⟨[], []⟩ (lines.flatMap Line.text) =
      some ⟨[] ++ lines.map Line.entry, []⟩ :=
    readLines_text hplain (by simpa using hkeys) (length_le_flatMap_text lines)
  simp only [readDocument, beq_iff_eq, hmark, ↓reduceIte, hread, Option.map_some, List.nil_append]

end Lines

/-! ### Written values -/

theorem quoteText_eq_cons (text : List Char) :
    ∃ more, quoteText text = '"' :: more ∨ quoteText text = '\'' :: more := by
  rw [quoteText]
  cases Quotation.of text <;> simp

theorem readValue_quoteText (text : List Char) (fuel : Nat) (rest : List Char) :
    readValue (fuel + 1) (quoteText text ++ '\n' :: rest) =
      some (.string (String.ofList text), '\n' :: rest) := by
  have hread : readQuoted (quoteText text ++ '\n' :: rest) = some (text, '\n' :: rest) :=
    readQuoted_quoteText text (by simp) (by simp)
  obtain ⟨more, hmore | hmore⟩ := quoteText_eq_cons text <;>
    simp_all [readValue]

theorem spanScalar_append {word : List Char} (hword : ∀ c ∈ word, isScalarChar c = true)
    (rest : List Char) : spanScalar (word ++ '\n' :: rest) = (word, '\n' :: rest) := by
  have hend : ∀ c, ('\n' :: rest).head? = some c → isScalarChar c = false := by
    rintro _ ⟨⟩
    decide
  rw [spanScalar, Text.takeWhile_append_of_head hword hend,
    Text.dropWhile_append_of_head hword hend]
  split <;> simp_all

theorem readValue_scalar {word : List Char} {value : Value} (hvalue : ofScalar? word = some value)
    (hfirst : word ≠ []) (hword : ∀ c ∈ word, isScalarChar c = true) (fuel : Nat)
    (rest : List Char) :
    readValue (fuel + 1) (word ++ '\n' :: rest) = some (value, '\n' :: rest) := by
  have hspan := spanScalar_append hword rest
  obtain ⟨c, more, rfl⟩ := List.exists_cons_of_ne_nil hfirst
  have hc := hword c List.mem_cons_self
  have hne : ∀ d, isScalarChar d = false → c ≠ d := by
    rintro d hd rfl
    simp [hc] at hd
  rw [List.cons_append] at hspan ⊢
  rw [readValue, hspan]
  · simp [hvalue]
  · simp [hne '[' (by decide)]
  · simp [hne '\x7b' (by decide)]
  · simp [hne '"' (by decide)]
  · simp [hne '\'' (by decide)]

section Digits

variable {digits : List Char} (hdigits : ∀ c ∈ digits, isDigit c = true)
include hdigits

theorem ungroup?_digits (hfirst : digits ≠ []) : ungroup? isDigit digits = some digits := by
  fun_induction ungroup? isDigit digits with
  | case1 => exact absurd rfl hfirst
  | case2 c hc => rfl
  | case3 c hc => simp_all
  | case4 c rest hc ih => exact absurd (hdigits '_' (by simp)) (by decide)
  | case5 c rest hc => exact absurd (hdigits '_' (by simp)) (by decide)
  | case6 c rest hrest hgroup hc ih =>
      rw [ih (fun d hd => hdigits d (by simp [hd])) hrest]
      rfl
  | case7 c rest hrest hgroup hc => simp_all

theorem readWhole?_digits (hfirst : digits ≠ [])
    (hzero : digits.length ≠ 1 → digits.head? ≠ some '0') :
    readWhole? digits = some (digitsValue digits : Int) := by
  have hplain : plainDigits? digits = some digits := by
    simp only [plainDigits?, ungroup?_digits hdigits hfirst, Option.bind_eq_bind, Option.bind_some]
    rw [if_neg]
    simpa using hzero
  have hbase : ∀ c, isDigit c = false → ∀ rest, digits ≠ '0' :: c :: rest := by
    rintro c hc rest rfl
    exact not_mem_of_isDigit hdigits hc (by simp)
  rw [readWhole?, readSign_digits hdigits]
  · simp [hplain, signed]
  · exact hbase 'x' (by decide)
  · exact hbase 'o' (by decide)
  · exact hbase 'b' (by decide)

end Digits

/-- A number of 64 bits is read from its digits. -/
theorem ofScalar?_toString {n : Nat} (h : isWord n = true) :
    ofScalar? (toString n).toList = some (.integer n) := by
  have hdigits : ∀ c ∈ (toString n).toList, isDigit c = true := fun c => isDigit_of_mem_digits
  have hread := readWhole?_digits hdigits (digits_ne_nil n) (head?_digits_of_length n)
  rw [digitsValue_toString] at hread
  have hword : ∀ word : String, (∃ c ∈ word.toList, isDigit c = false) →
      ((toString n).toList == word.toList) = false := by
    rintro word ⟨c, hmem, hc⟩
    rw [beq_eq_false_iff_ne]
    exact fun heq => not_mem_of_isDigit hdigits hc (heq ▸ hmem)
  simp only [ofScalar?, hword "true" ⟨'t', by decide⟩, hword "false" ⟨'f', by decide⟩, hread, h,
    Bool.false_eq_true, ↓reduceIte]

end LiveTables.Toml
