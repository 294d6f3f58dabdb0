import LiveTables.Lock.Holder
import LiveTables.Proofs.Numerals
import LiveTables.Proofs.TextRuns
import LiveTables.Proofs.Utf8Bytes
import Mathlib

/-!
# The record in a lock file

The record that a holder leaves is read back as that holder. Strings are read byte by byte: the
bytes of a character beyond ASCII are passed over, and only a quote that is not escaped ends a
string.
-/

namespace LiveTables.Text.Json

open LiveTables.Number

/-- The bytes of a text. -/
def bytes (text : List Char) : List UInt8 := text.flatMap String.utf8EncodeChar

theorem bytes_append (text other : List Char) : bytes (text ++ other) = bytes text ++ bytes other :=
  List.flatMap_append

/-! ### Strings -/

/-- A byte that is in a string as it is. -/
def IsPlain (b : UInt8) : Prop := 0x20 ≤ b.toNat ∧ byteChar b ≠ '"' ∧ byteChar b ≠ '\\'

theorem readString_plain {b : UInt8} (h : IsPlain b) (rest : List UInt8) :
    readString (b :: rest) = (readString rest).map fun (raw, rest) => (b :: raw, rest) := by
  obtain ⟨hlow, hquote, hbackslash⟩ := h
  have hcontrol : ¬ b < 0x20 := by
    rw [UInt8.lt_iff_toNat_lt]
    exact Nat.not_lt.2 hlow
  rw [readString.eq_def]
  simp [hquote, hcontrol, hbackslash]

/-- What reading gives when a stretch of a string comes first. -/
def withFront (front : List UInt8) (result : Option (List UInt8 × List UInt8)) :
    Option (List UInt8 × List UInt8) :=
  result.map fun (raw, rest) => (front ++ raw, rest)

theorem readString_front {front : List UInt8} (h : ∀ b ∈ front, IsPlain b) (rest : List UInt8) :
    readString (front ++ rest) = withFront front (readString rest) := by
  induction front with
  | nil => cases hrest : readString rest <;> simp [withFront, hrest]
  | cons b front ih =>
      rw [List.cons_append, readString_plain (h b List.mem_cons_self),
        ih fun other hother => h other (List.mem_cons_of_mem _ hother)]
      cases readString rest <;> rfl

theorem toNat_asciiByte {c : Char} (h : c.toNat < 0x80) :
    (UInt8.ofNat c.toNat).toNat = c.toNat := by
  have hsize : c.toNat < 0x100 := by omega
  exact UInt8.toNat_ofNat_of_lt' hsize

theorem byteChar_asciiByte {c : Char} (h : c.toNat < 0x80) :
    byteChar (UInt8.ofNat c.toNat) = c := by
  rw [byteChar, toNat_asciiByte h, Char.ofNat_toNat]

theorem toNat_byteChar (b : UInt8) : (byteChar b).toNat = b.toNat := by
  have hb := b.toNat_lt
  have hvalid : b.toNat.isValidChar := Or.inl (by omega)
  rw [byteChar, Char.ofNat, dif_pos hvalid]
  rfl

/-- A character that needs no escape has bytes that need none. -/
theorem isPlain_of_mem_utf8EncodeChar {c : Char} (hlow : 0x20 ≤ c.toNat) (hquote : c ≠ '"')
    (hbackslash : c ≠ '\\') {b : UInt8} (hb : b ∈ String.utf8EncodeChar c) : IsPlain b := by
  by_cases hone : c.toNat < 0x80
  · rw [utf8EncodeChar_one hone, List.mem_singleton] at hb
    subst hb
    rw [IsPlain, byteChar_asciiByte hone, toNat_asciiByte hone]
    exact ⟨hlow, hquote, hbackslash⟩
  · have hbeyond := le_of_mem_utf8EncodeChar (by omega) hb
    have hchar := toNat_byteChar b
    refine ⟨by omega, fun h => ?_, fun h => ?_⟩ <;> rw [h] at hchar
    · have : ('"').toNat = 34 := rfl
      omega
    · have : ('\\').toNat = 92 := rfl
      omega

theorem bytes_ascii {text : List Char} (h : text.all (·.toNat < 0x80) = true) :
    bytes text = text.map fun c => UInt8.ofNat c.toNat := by
  induction text with
  | nil => rfl
  | cons c text ih =>
      rw [List.all_cons, Bool.and_eq_true, decide_eq_true_eq] at h
      rw [bytes, List.flatMap_cons, utf8EncodeChar_one h.1, List.map_cons]
      exact congrArg _ (ih h.2)

theorem readString_letter {letter : UInt8} (hnumber : byteChar letter ≠ 'u')
    (h : ['"', '\\', '/', 'b', 'f', 'n', 'r', 't'].contains (byteChar letter) = true)
    (rest : List UInt8) :
    readString (92 :: letter :: rest) = withFront [92, letter] (readString rest) := by
  have hbackslash : byteChar 92 = '\\' := rfl
  have hcontrol : ¬ (92 : UInt8) < 0x20 := by decide
  rw [readString.eq_def]
  simp only [hbackslash, beq_iff_eq, hnumber, hcontrol, h, ↓reduceIte]
  rfl

theorem readString_number {h1 h2 h3 h4 : UInt8}
    (h : [h1, h2, h3, h4].all (isHexDigit <| byteChar ·) = true) (rest : List UInt8) :
    readString (92 :: 117 :: h1 :: h2 :: h3 :: h4 :: rest) =
      withFront [92, 117, h1, h2, h3, h4] (readString rest) := by
  have hbackslash : byteChar 92 = '\\' := rfl
  have hnumber : byteChar 117 = 'u' := rfl
  have hcontrol : ¬ (92 : UInt8) < 0x20 := by decide
  rw [readString.eq_def]
  simp only [hbackslash, beq_iff_eq, hnumber, hcontrol, h, ↓reduceIte]
  rfl

theorem hexDigit_ascii {d : Nat} (hd : d < 16) :
    (hexDigit d).toNat < 0x80 ∧ isHexDigit (hexDigit d) = true ∧ hexValue (hexDigit d) = d := by
  decide +revert

theorem readString_control {n : Nat} (hn : n < 0x20) (rest : List UInt8) :
    readString (bytes (['\\', 'u'] ++ paddedHex 4 n) ++ rest) =
      withFront (bytes (['\\', 'u'] ++ paddedHex 4 n)) (readString rest) := by
  obtain ⟨hhigh, hhighHex, -⟩ := hexDigit_ascii (show n / 16 < 16 by omega)
  obtain ⟨hlow, hlowHex, -⟩ := hexDigit_ascii (show n % 16 < 16 by omega)
  have hdigits : [48, 48, UInt8.ofNat (hexDigit (n / 16)).toNat,
      UInt8.ofNat (hexDigit (n % 16)).toNat].all (isHexDigit <| byteChar ·) = true := by
    simp only [List.all_cons, byteChar_asciiByte hhigh, byteChar_asciiByte hlow, hhighHex, hlowHex]
    rfl
  rw [paddedHex_four (by omega), bytes_ascii (by simp [hhigh, hlow])]
  exact readString_number hdigits rest

/-- Reading takes what is written for a character as it is written. -/
theorem readString_escapeChar (c : Char) (rest : List UInt8) :
    readString (bytes (escapeChar c) ++ rest) =
      withFront (bytes (escapeChar c)) (readString rest) := by
  unfold escapeChar
  split_ifs with hquote hbackslash hb hf hn hr ht hcontrol
  · exact readString_letter (by decide) rfl rest
  · exact readString_letter (by decide) rfl rest
  · exact readString_letter (by decide) rfl rest
  · exact readString_letter (by decide) rfl rest
  · exact readString_letter (by decide) rfl rest
  · exact readString_letter (by decide) rfl rest
  · exact readString_letter (by decide) rfl rest
  · exact readString_control hcontrol rest
  · apply readString_front
    intro b hmem
    rw [bytes, List.flatMap_singleton] at hmem
    exact isPlain_of_mem_utf8EncodeChar (by omega) (by simpa using hquote)
      (by simpa using hbackslash) hmem

theorem readString_escaped (text : List Char) (rest : List UInt8) :
    readString (bytes (text.flatMap escapeChar) ++ 34 :: rest) =
      some (bytes (text.flatMap escapeChar), rest) := by
  induction text with
  | nil =>
      rw [readString.eq_def]
      rfl
  | cons c text ih =>
      rw [List.flatMap_cons, bytes_append, List.append_assoc, readString_escapeChar, ih]
      rfl

theorem unescape?_escapeChar (c : Char) (rest : List Char) :
    unescape? (escapeChar c ++ rest) = (unescape? rest).map (c :: ·) := by
  unfold escapeChar
  split_ifs with hquote hbackslash hb hf hn hr ht hcontrol
  · simp_all [unescape?]
  · simp_all [unescape?]
  · simp_all [unescape?]
  · simp_all [unescape?]
  · simp_all [unescape?]
  · simp_all [unescape?]
  · simp_all [unescape?]
  · obtain ⟨-, -, hhigh⟩ := hexDigit_ascii (show c.toNat / 16 < 16 by omega)
    obtain ⟨-, -, hlow⟩ := hexDigit_ascii (show c.toNat % 16 < 16 by omega)
    have hunit : hexUnit '0' '0' (hexDigit (c.toNat / 16)) (hexDigit (c.toNat % 16)) = c.toNat := by
      have hzero : hexValue '0' = 0 := rfl
      rw [hexUnit, hzero, hhigh, hlow]
      omega
    have hpair : (0xd800 ≤ c.toNat && c.toNat ≤ 0xdfff) = false := by
      simp
      omega
    rw [paddedHex_four (by omega), unescape?.eq_def]
    simp only [List.cons_append, List.nil_append, hunit, hpair, Bool.false_eq_true, ↓reduceIte,
      Char.ofNat_toNat]
  · have hbackslash' : c ≠ '\\' := by simpa using hbackslash
    simp [unescape?, hbackslash']

theorem unescape?_escaped (text : List Char) : unescape? (text.flatMap escapeChar) = some text := by
  induction text with
  | nil => rfl
  | cons c text ih => rw [List.flatMap_cons, unescape?_escapeChar, ih, Option.map_some]

/-- The text of a string that was written is the text. -/
theorem stringText?_escaped (text : List Char) :
    stringText? (bytes (text.flatMap escapeChar)) = some (String.ofList text) := by
  simp [stringText?, bytes, decodeUtf8, decodeFrom_flatMap, unescape?_escaped, Except.map]

/-! ### Tokens -/

theorem tokens_mark {b : UInt8}
    (h : ['[', ']', '\x7b', '\x7d', ',', ':'].contains (byteChar b) = true) (rest : List UInt8) :
    tokens (b :: rest) = (tokens rest).map (.mark (byteChar b) :: ·) := by
  have hmark : byteChar b = '[' ∨ byteChar b = ']' ∨ byteChar b = '\x7b' ∨ byteChar b = '\x7d' ∨
      byteChar b = ',' ∨ byteChar b = ':' := by simpa using h
  rw [tokens]
  rcases hmark with hb | hb | hb | hb | hb | hb <;> simp [hb, Char.isDigit, Char.isAlpha]

theorem tokens_string {text raw rest : List UInt8} (h : readString text = some (raw, rest)) :
    tokens (34 :: text) = (tokens rest).map (.string raw :: ·) := by
  have hquote : byteChar 34 = '"' := rfl
  rw [tokens]
  simp only [hquote, beq_self_eq_true, ↓reduceIte]
  rw [if_neg (by decide)]
  split
  · simp_all
  · next other rest' hread =>
      obtain ⟨rfl, rfl⟩ := Prod.mk.inj (Option.some.inj (h.symm.trans hread))
      rfl

theorem isNumber_digits {digits : List Char} (hdigits : ∀ c ∈ digits, isDigit c = true)
    (hfirst : digits ≠ []) (hzero : digits.length ≠ 1 → digits.head? ≠ some '0') :
    isNumber digits = true := by
  have hsign : digits.head? ≠ some '-' := fun h =>
    absurd (hdigits '-' (List.mem_of_mem_head? h)) (by decide)
  have hwhole : isWholeNumber digits = true := by
    have hall : digits.all isDigit = true := List.all_eq_true.2 hdigits
    by_cases hlength : digits.length = 1
    · simp [isWholeNumber, hfirst, hall, hlength]
    · simp [isWholeNumber, hfirst, hall, hzero hlength]
  simp [isNumber, hsign, spanDigits_digits hdigits, hwhole]

theorem continuesNumber_of_isDigit {b : UInt8} (h : isDigit (byteChar b) = true) :
    continuesNumber b = true := by
  have hdigit : (byteChar b).isDigit = true := h
  simp [continuesNumber, hdigit]

theorem toNat_of_isDigit {c : Char} (h : isDigit c = true) : c.toNat < 0x80 := by
  rw [isDigit, Bool.and_eq_true, decide_eq_true_eq, decide_eq_true_eq] at h
  have hnine : c.toNat ≤ ('9').toNat := h.2
  have hvalue : ('9').toNat = 57 := rfl
  omega

/-- A run of digits is a number of its own if nothing behind it continues it. -/
theorem tokens_digits {digits : List Char} (hdigits : ∀ c ∈ digits, isDigit c = true)
    (hnumber : isNumber digits = true) (hfirst : digits ≠ []) {stop : UInt8} {rest : List UInt8}
    (hrest : continuesNumber stop = false) :
    tokens (bytes digits ++ stop :: rest) = (tokens (stop :: rest)).map (.number digits :: ·) := by
  have hbyte : ∀ c ∈ digits, byteChar (UInt8.ofNat c.toNat) = c := fun c hc =>
    byteChar_asciiByte (toNat_of_isDigit (hdigits c hc))
  have hbytes : bytes digits = digits.map fun c => UInt8.ofNat c.toNat := by
    apply bytes_ascii
    simp only [List.all_eq_true, decide_eq_true_eq]
    exact fun c hc => toNat_of_isDigit (hdigits c hc)
  obtain ⟨c, more, rfl⟩ := List.exists_cons_of_ne_nil hfirst
  have hspan : ∀ b ∈ more.map fun c => UInt8.ofNat c.toNat, continuesNumber b = true := by
    intro b hb
    obtain ⟨d, hd, rfl⟩ := List.mem_map.1 hb
    apply continuesNumber_of_isDigit
    rw [hbyte d (List.mem_cons_of_mem _ hd)]
    exact hdigits d (List.mem_cons_of_mem _ hd)
  have hmore : (more.map fun c => UInt8.ofNat c.toNat).map byteChar = more := by
    rw [List.map_map]
    exact (List.map_congr_left fun d hd => hbyte d (List.mem_cons_of_mem _ hd)).trans
      (List.map_id _)
  have hc : c.isDigit = true := hdigits c List.mem_cons_self
  have hblank : ∀ d, isDigit d = false → c ≠ d := by
    rintro d hd rfl
    simp [hdigits c List.mem_cons_self] at hd
  rw [hbytes, List.map_cons, List.cons_append, tokens]
  have hend : ∀ b, (stop :: rest).head? = some b → continuesNumber b = false := by
    rintro _ ⟨⟩
    exact hrest
  have htake := takeWhile_append_of_head hspan hend
  have hdrop := dropWhile_append_of_head hspan hend
  simp only [hbyte c List.mem_cons_self, htake, hdrop, hmore, hnumber, hc, Bool.or_true, ↓reduceIte]
  simp [hblank ' ' rfl, hblank '\t' rfl, hblank '\n' rfl, hblank '\r' rfl, hblank '"' rfl]

end LiveTables.Text.Json

namespace LiveTables.Lock.Holder

open LiveTables.Number LiveTables.Text LiveTables.Text.Json

/-- The inside of a string that spells a text. -/
def inside (text : String) : List UInt8 := bytes (text.toList.flatMap escapeChar)

theorem stringText?_inside (text : String) : stringText? (inside text) = some text := by
  rw [inside, stringText?_escaped, String.ofList_toList]

theorem encodeUtf8_toJson (holder : Holder) : encodeUtf8 holder.toJson =
    123 :: 34 :: (inside "pid" ++ 34 :: 58 :: (bytes (toString holder.process).toList ++
      44 :: 34 :: (inside "acquired_at" ++ 34 :: 58 :: 34 ::
        (inside holder.since ++ [34, 125])))) := by
  have hopening : bytes "\x7b\"pid\":".toList = 123 :: 34 :: (inside "pid" ++ [34, 58]) := by decide
  have hmiddle : bytes ",\"acquired_at\":".toList =
      44 :: 34 :: (inside "acquired_at" ++ [34, 58]) := by
    decide
  have hclosing : bytes "\x7d".toList = [125] := by decide
  have hquoted : bytes (Json.quoted holder.since).toList = 34 :: (inside holder.since ++ [34]) := by
    have hmark : bytes ['"'] = [34] := by decide
    rw [Json.quoted, String.toList_ofList, inside, ← hmark, ← List.singleton_append, bytes_append,
      bytes_append]
    rfl
  have hbytes : encodeUtf8 holder.toJson = bytes holder.toJson.toList := encodeUtf8_eq _
  rw [hbytes, toJson]
  simp only [String.toList_append, bytes_append, hopening, hmiddle, hclosing, hquoted,
    List.append_assoc, List.cons_append, List.nil_append]

theorem tokens_inside (text : String) (rest : List UInt8) :
    tokens (34 :: (inside text ++ 34 :: rest)) = (tokens rest).map (.string (inside text) :: ·) :=
  tokens_string (readString_escaped text.toList rest)

/-- The digits of a number are one token, in front of whatever does not continue them. -/
theorem tokens_toString (n : Nat) {stop : UInt8} {rest : List UInt8}
    (hstop : continuesNumber stop = false) : tokens (bytes (toString n).toList ++ stop :: rest) =
      (tokens (stop :: rest)).map (.number (toString n).toList :: ·) := by
  have hdigits : ∀ c ∈ (toString n).toList, isDigit c = true := fun c => isDigit_of_mem_digits
  exact tokens_digits hdigits (isNumber_digits hdigits (digits_ne_nil n) (head?_digits_of_length n))
    (digits_ne_nil n) hstop

theorem tokens_toJson (holder : Holder) : tokens (encodeUtf8 holder.toJson) =
    some [.mark '\x7b', .string (inside "pid"), .mark ':', .number (toString holder.process).toList,
      .mark ',', .string (inside "acquired_at"), .mark ':', .string (inside holder.since),
      .mark '\x7d'] := by
  have hcomma : continuesNumber 44 = false := by decide
  have hend : tokens [125] = some [.mark '\x7d'] := by
    rw [tokens_mark rfl, tokens]
    rfl
  rw [encodeUtf8_toJson, tokens_mark rfl, tokens_inside, tokens_mark rfl, tokens_toString _ hcomma,
    tokens_mark rfl, tokens_inside, tokens_mark rfl, tokens_inside, hend]
  rfl

theorem read?_toJson (holder : Holder) : Json.read? (encodeUtf8 holder.toJson) =
    some (.object [(inside "pid", .number (toString holder.process).toList),
      (inside "acquired_at", .string (inside holder.since))]) := by
  rw [read?, tokens_toJson]
  rfl

theorem ofNumber?_toString {n : Nat} (h : n < 2 ^ 32) :
    ofNumber? (toString n).toList = some n := by
  have hdigits : (toString n).toList.all isDigit = true :=
    List.all_eq_true.2 fun c hc => isDigit_of_mem_digits hc
  have hsmall : n < 4294967296 := h
  rw [ofNumber?, digitsValue_toString, hdigits]
  simp [hsmall]

/-- The record of a holder is read as that holder. -/
theorem ofBytes?_toJson {holder : Holder} (h : holder.process < 2 ^ 32) :
    ofBytes? (encodeUtf8 holder.toJson) = some holder := by
  have hprocess : process? (.number (toString holder.process).toList) = some holder.process :=
    ofNumber?_toString h
  have hsince : since? (.string (inside holder.since)) = some holder.since :=
    stringText?_inside holder.since
  have hpid : Partial.add ⟨none, none⟩ (inside "pid")
      (.number (toString holder.process).toList) = some ⟨some holder.process, none⟩ := by
    rw [Partial.add, stringText?_inside, hprocess]
    rfl
  have hfields : Partial.add ⟨some holder.process, none⟩ (inside "acquired_at")
      (.string (inside holder.since)) = some ⟨some holder.process, some holder.since⟩ := by
    rw [Partial.add, stringText?_inside, hsince]
    rfl
  rw [ofBytes?, read?_toJson]
  simp only [Option.bind_eq_bind, Option.bind_some, ofValue?, List.foldlM_cons, List.foldlM_nil,
    hpid, hfields]
  rfl

/-- An empty lock file names nobody. -/
theorem ofBytes?_nil : ofBytes? [] = none := by
  rw [ofBytes?, read?, tokens]
  rfl

end LiveTables.Lock.Holder
