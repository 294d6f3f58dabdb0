import LiveTables.Proofs.IntegerFields
import LiveTables.Time.Calendar

/-!
# Spans of time read back

The text of a span of time is a row of words: counts with their units, and a clock behind them.
Reading these words gives back the parts that they show, and the parts give back the span, apart
from what its nanoseconds have beyond whole microseconds. So no two other spans have the same text.
-/

namespace LiveTables.Time

open LiveTables.Number

/-- A clock as a text shows it, with one sign for all of it. -/
structure Clock where
  negative : Bool
  hours : Nat
  minutes : Nat
  seconds : Nat
  fraction : Nat

def Clock.micros (clock : Clock) : Nat :=
  ((clock.hours * 60 + clock.minutes) * 60 + clock.seconds) * 1000000 + clock.fraction

/-- The parts of a span as a text shows them, zero for a count that is left out. -/
structure Parts where
  years : Int
  months : Int
  days : Int
  clock : Option Clock

/-- The time that the clock shows, in microseconds. -/
def Parts.micros (parts : Parts) : Int :=
  match parts.clock with
  | none => 0
  | some clock => signed clock.negative clock.micros

/-! ### How parts are written -/

/-- A count and its unit, in the singular for one and minus one. Zero is left out. -/
inductive ShowsCount (unit : String) : Int → List (List Char) → Prop
  | nothing : ShowsCount unit 0 []
  | singular {count : Int} (h : count.natAbs = 1) :
      ShowsCount unit count [(toString count).toList, unit.toList]
  | plural {count : Int} (h : 1 < count.natAbs) :
      ShowsCount unit count [(toString count).toList, (unit ++ "s").toList]

structure DigitsOf (n : Nat) (digits : List Char) : Prop where
  numeral : IsNumeral digits
  value : placeValue digits = n

structure ShowsSixtieth (n : Nat) (digits : List Char) : Prop extends DigitsOf n digits where
  length : digits.length = 2
  below : n < 60

/-- Six digits behind a point, or nothing for whole seconds. -/
inductive ShowsFraction : Nat → List Char → Prop
  | whole : ShowsFraction 0 []
  | digits {fraction : Nat} {digits : List Char} (hne : fraction ≠ 0) (h : DigitsOf fraction digits)
      (hlength : digits.length = 6) : ShowsFraction fraction ('.' :: digits)

/-- Hours, minutes and seconds with colons between them, behind a minus or nothing. -/
inductive ShowsClock (clock : Clock) : List Char → Prop
  | intro {hours minutes seconds fraction : List Char} (hhours : DigitsOf clock.hours hours)
      (hwidth : 2 ≤ hours.length) (hminutes : ShowsSixtieth clock.minutes minutes)
      (hseconds : ShowsSixtieth clock.seconds seconds)
      (hfraction : ShowsFraction clock.fraction fraction) :
      ShowsClock clock ((if clock.negative then ['-'] else []) ++ (hours ++ ':' :: (minutes ++
        ':' :: (seconds ++ fraction))))

inductive ShowsTime : Option Clock → List (List Char) → Prop
  | nothing : ShowsTime none []
  | clock {clock : Clock} {text : List Char} (h : ShowsClock clock text) :
      ShowsTime (some clock) [text]

/-- The words of a text are the counts that are not zero, with their units, and then the clock. -/
def Parts.ShownBy (parts : Parts) (text : String) : Prop :=
  ∃ years months days time, text.toList.splitOn ' ' = years ++ (months ++ (days ++ time)) ∧
    ShowsCount "year" parts.years years ∧ ShowsCount "month" parts.months months ∧
    ShowsCount "day" parts.days days ∧ ShowsTime parts.clock time

/-! ### Reading -/

def readClock (text : List Char) : Clock :=
  let (negative, rest) := readSign text
  let (hours, rest) := spanDigits rest
  let (minutes, rest) := spanDigits (rest.drop 1)
  let (seconds, rest) := spanDigits (rest.drop 1)
  ⟨negative, digitsValue hours, digitsValue minutes, digitsValue seconds, digitsValue (rest.drop 1)⟩

/-- The parts with a count more. The first letter of its unit tells which count it is. -/
def Parts.add (parts : Parts) (count : Int) : List Char → Parts
  | 'y' :: _ => { parts with years := parts.years + count }
  | 'm' :: _ => { parts with months := parts.months + count }
  | 'd' :: _ => { parts with days := parts.days + count }
  | _ => parts

def readWords (parts : Parts) : List (List Char) → Parts
  | [] => parts
  | [clock] => { parts with clock := some (readClock clock) }
  | count :: unit :: rest => readWords (parts.add ((readInteger? count).getD 0) unit) rest

def readParts (text : String) : Parts := readWords ⟨0, 0, 0, none⟩ (text.toList.splitOn ' ')

theorem DigitsOf.digitsValue_eq {n : Nat} {digits : List Char} (h : DigitsOf n digits) :
    digitsValue digits = n := by
  rw [digitsValue_eq_placeValue, h.value]

theorem DigitsOf.spanDigits_append {n : Nat} {digits : List Char} (h : DigitsOf n digits)
    {rest : List Char} (hrest : ∀ c, rest.head? = some c → isDigit c = false) :
    spanDigits (digits ++ rest) = (digits, rest) :=
  Number.spanDigits_append h.numeral.isDigit hrest

theorem ShowsFraction.isDigit_head? {fraction : Nat} {text : List Char}
    (h : ShowsFraction fraction text) : ∀ c, text.head? = some c → isDigit c = false := by
  cases h with
  | whole => simp
  | digits =>
      rintro c ⟨⟩
      decide

theorem ShowsFraction.digitsValue_eq {fraction : Nat} {text : List Char}
    (h : ShowsFraction fraction text) : digitsValue (text.drop 1) = fraction := by
  cases h with
  | whole => rfl
  | digits _ h _ => exact h.digitsValue_eq

theorem readSign_clock (negative : Bool) {digits : List Char} (h : IsNumeral digits)
    (rest : List Char) :
    readSign ((if negative then ['-'] else []) ++ (digits ++ rest)) =
      (negative, digits ++ rest) := by
  cases negative with
  | true => rfl
  | false =>
      obtain ⟨first, more, rfl⟩ := List.exists_cons_of_ne_nil h.nonempty
      exact readSign_of_isDigit (h.isDigit first List.mem_cons_self) (more ++ rest)

theorem ShowsClock.readClock_eq {clock : Clock} {text : List Char} (h : ShowsClock clock text) :
    readClock text = clock := by
  obtain ⟨hhours, -, hminutes, hseconds, hfraction⟩ := h
  have hcolon : ∀ rest : List Char, ∀ c, (':' :: rest).head? = some c → isDigit c = false := by
    rintro rest c ⟨⟩
    decide
  simp only [readClock, readSign_clock _ hhours.numeral, List.drop_succ_cons, List.drop_zero,
    hhours.spanDigits_append (hcolon _), hminutes.spanDigits_append (hcolon _),
    hseconds.spanDigits_append hfraction.isDigit_head?, hhours.digitsValue_eq,
    hminutes.digitsValue_eq, hseconds.digitsValue_eq, hfraction.digitsValue_eq]

/-- Words that show a count are read as this count, in the singular as in the plural. -/
theorem ShowsCount.readWords_append {unit : String} {count : Int} {words : List (List Char)}
    (h : ShowsCount unit count words) (parts : Parts) (rest : List (List Char))
    (hzero : parts.add 0 unit.toList = parts)
    (hplural : parts.add count (unit ++ "s").toList = parts.add count unit.toList) :
    readWords parts (words ++ rest) = readWords (parts.add count unit.toList) rest := by
  have hread : readInteger? (toString count).toList = some count :=
    readInteger?_eq_some_iff.2 (spells_toString count)
  cases h with
  | nothing => rw [hzero, List.nil_append]
  | singular =>
      simp only [List.cons_append, List.nil_append, readWords, hread, Option.getD_some]
  | plural =>
      simp only [List.cons_append, List.nil_append, readWords, hread, Option.getD_some, hplural]

theorem Parts.ShownBy.readParts_eq {parts : Parts} {text : String} (h : parts.ShownBy text) :
    readParts text = parts := by
  obtain ⟨years, months, days, time, hwords, hyears, hmonths, hdays, htime⟩ := h
  rw [readParts, hwords, hyears.readWords_append _ _ rfl rfl, hmonths.readWords_append _ _ rfl rfl,
    hdays.readWords_append _ _ rfl rfl]
  obtain ⟨years, months, days, clock⟩ := parts
  cases htime with
  | nothing => simp [readWords, Parts.add]
  | clock hclock => simp [readWords, Parts.add, hclock.readClock_eq]

/-! ### The words of a span -/

/-- The clock of a span, which is cut to whole microseconds. -/
def clockOf (nanos : Int) : Clock :=
  let micros := nanos.natAbs / 1000
  ⟨nanos < 0, micros / 1000000 / 3600, micros / 1000000 / 60 % 60, micros / 1000000 % 60,
    micros % 1000000⟩

/-- The parts of a span. A clock without any time is left out if there is another part. -/
def partsOf (months days nanos : Int) : Parts :=
  ⟨months.tdiv 12, months.tmod 12, days,
    if nanos = 0 ∧ (months ≠ 0 ∨ days ≠ 0) then none else some (clockOf nanos)⟩

/-- Millionths of a second behind a point, in six digits. -/
def microsText (fraction : Nat) : String :=
  if fraction == 0 then "" else "." ++ padded 6 fraction

def signedClockText (nanos : Int) : String :=
  let micros := nanos.natAbs / 1000
  (if nanos < 0 then "-" else "") ++ clockText (micros / 1000000) ++ microsText (micros % 1000000)

def countTexts (count : Int) (unit : String) : List String :=
  if count == 0 then [] else [countText count unit]

def clockTexts (months days nanos : Int) : List String :=
  if nanos = 0 ∧ (months ≠ 0 ∨ days ≠ 0) then [] else [signedClockText nanos]

def spanTexts (months days nanos : Int) : List String :=
  countTexts (months.tdiv 12) "year" ++ (countTexts (months.tmod 12) "month" ++
    (countTexts days "day" ++ clockTexts months days nanos))

theorem countTexts_eq_nil_iff {count : Int} {unit : String} :
    countTexts count unit = [] ↔ count = 0 := by
  simp [countTexts]

theorem tdiv_tmod_eq_zero_iff {months : Int} :
    months.tdiv 12 = 0 ∧ months.tmod 12 = 0 ↔ months = 0 := by
  have hsplit := Int.mul_tdiv_add_tmod months 12
  constructor
  · rintro ⟨hyears, hmonths⟩
    omega
  · rintro rfl
    decide

theorem spanText_eq (months days nanos : Int) :
    spanText months days nanos = " ".intercalate (spanTexts months days nanos) := by
  set counts := countTexts (months.tdiv 12) "year" ++ countTexts (months.tmod 12) "month" ++
    countTexts days "day" with hcounts
  have hempty : counts = [] ↔ months = 0 ∧ days = 0 := by
    simp only [hcounts, List.append_eq_nil_iff, countTexts_eq_nil_iff, tdiv_tmod_eq_zero_iff]
  have hclock : (nanos == 0 && !counts.isEmpty) = true ↔ nanos = 0 ∧ (months ≠ 0 ∨ days ≠ 0) := by
    rw [Bool.and_eq_true, beq_iff_eq, Bool.not_eq_true', ← Bool.not_eq_true, List.isEmpty_iff,
      hempty, not_and_or]
  have htexts : spanTexts months days nanos =
      if nanos == 0 && !counts.isEmpty then counts else counts ++ [signedClockText nanos] := by
    rw [spanTexts, ← List.append_assoc, ← List.append_assoc, ← hcounts, clockTexts]
    simp only [hclock]
    split_ifs <;> simp
  rw [htexts]
  rfl

theorem spanTexts_ne_nil (months days nanos : Int) : spanTexts months days nanos ≠ [] := by
  intro hnil
  simp only [spanTexts, clockTexts, List.append_eq_nil_iff, countTexts_eq_nil_iff] at hnil
  obtain ⟨hyears, hmonths, hdays, hclock⟩ := hnil
  have hzero := tdiv_tmod_eq_zero_iff.1 ⟨hyears, hmonths⟩
  simp [hzero, hdays] at hclock

theorem digitsOf_padded (width n : Nat) : DigitsOf n (padded width n).toList where
  numeral := {
    nonempty := by simp [toList_padded]
    digits := fun c hc => by simpa [isDigit] using isDigit_of_mem_padded hc }
  value := by rw [← digitsValue_eq_placeValue, digitsValue_padded]

theorem showsSixtieth_padded {n : Nat} (h : n < 60) : ShowsSixtieth n (padded 2 n).toList where
  toDigitsOf := digitsOf_padded 2 n
  length := length_padded (by decide) (by omega)
  below := h

theorem showsFraction_microsText {fraction : Nat} (h : fraction < 1000000) :
    ShowsFraction fraction (microsText fraction).toList := by
  by_cases hzero : fraction = 0
  · subst hzero
    exact .whole
  · rw [microsText, if_neg (by simpa using hzero), String.toList_append]
    exact .digits hzero (digitsOf_padded 6 fraction) (length_padded (by decide) h)

theorem showsClock_signedClockText (nanos : Int) :
    ShowsClock (clockOf nanos) (signedClockText nanos).toList := by
  have hminus : (if nanos < 0 then "-" else "").toList =
      if (clockOf nanos).negative then ['-'] else [] := by
    by_cases hneg : nanos < 0 <;> simp [clockOf, hneg]
  have hwidth : ∀ n, 2 ≤ (padded 2 n).toList.length := fun n => by
    rw [toList_padded, List.length_append, List.length_replicate, String.length_toList]
    omega
  have htext : (signedClockText nanos).toList =
      (if (clockOf nanos).negative then ['-'] else []) ++
        ((padded 2 (clockOf nanos).hours).toList ++
          ':' :: ((padded 2 (clockOf nanos).minutes).toList ++
            ':' :: ((padded 2 (clockOf nanos).seconds).toList ++
              (microsText (clockOf nanos).fraction).toList))) := by
    rw [← hminus]
    simp [signedClockText, clockText, clockOf]
  rw [htext]
  exact .intro (digitsOf_padded 2 _) (hwidth _) (showsSixtieth_padded (Nat.mod_lt _ (by decide)))
    (showsSixtieth_padded (Nat.mod_lt _ (by decide)))
    (showsFraction_microsText (Nat.mod_lt _ (by decide)))

section Words

variable {unit : String} (hunit : ' ' ∉ unit.toList)
include hunit

theorem splitOn_countText (count : Int) : (countText count unit).toList.splitOn ' ' =
    [(toString count).toList, (unit ++ if count.natAbs == 1 then "" else "s").toList] := by
  have hcount : ' ' ∉ (toString count).toList := fun hmem =>
    absurd ((spells_toString count).isBlank_eq_false ' ' hmem) (by decide)
  have hplural : ' ' ∉ (unit ++ if count.natAbs == 1 then "" else "s").toList := by
    split_ifs <;> simp [hunit]
  have htext : (countText count unit).toList =
      (toString count).toList ++ ' ' :: (unit ++ if count.natAbs == 1 then "" else "s").toList := by
    simp [countText]
  rw [htext, List.splitOn_append_cons_self, List.splitOn_eq_singleton hcount,
    List.splitOn_eq_singleton hplural, List.singleton_append]

theorem showsCount_countTexts (count : Int) :
    ShowsCount unit count ((countTexts count unit).flatMap (·.toList.splitOn ' ')) := by
  by_cases hzero : count = 0
  · subst hzero
    exact .nothing
  · rw [countTexts, if_neg (by simpa using hzero), List.flatMap_singleton,
      splitOn_countText hunit]
    by_cases hone : count.natAbs = 1
    · rw [if_pos (by simpa using hone), String.append_empty]
      exact .singular hone
    · rw [if_neg (by simpa using hone)]
      exact .plural (by omega)

end Words

theorem ShowsClock.blank_notMem {clock : Clock} {text : List Char} (h : ShowsClock clock text) :
    ' ' ∉ text := by
  obtain ⟨hhours, -, hminutes, hseconds, hfraction⟩ := h
  have hdigits : ∀ {n digits}, DigitsOf n digits → ' ' ∉ digits :=
    fun h => not_mem_of_isDigit h.numeral.isDigit (by decide)
  have hpoint : ∀ {fraction text}, ShowsFraction fraction text → ' ' ∉ text := by
    rintro _ _ (_ | ⟨-, h, -⟩)
    · exact List.not_mem_nil
    · simp [hdigits h]
  split_ifs <;> simp [hdigits hhours, hdigits hminutes.toDigitsOf, hdigits hseconds.toDigitsOf,
    hpoint hfraction]

theorem showsTime_clockTexts (months days nanos : Int) :
    ShowsTime (partsOf months days nanos).clock
      ((clockTexts months days nanos).flatMap (·.toList.splitOn ' ')) := by
  have hclock := showsClock_signedClockText nanos
  unfold partsOf clockTexts
  split_ifs with hnone
  · exact .nothing
  · rw [List.flatMap_singleton, List.splitOn_eq_singleton hclock.blank_notMem]
    exact .clock hclock

theorem shownBy_spanText (months days nanos : Int) :
    (partsOf months days nanos).ShownBy (spanText months days nanos) := by
  have hwords : (spanText months days nanos).toList.splitOn ' ' =
      (spanTexts months days nanos).flatMap (·.toList.splitOn ' ') := by
    rw [spanText_eq, String.toList_intercalate, ← List.flatMap_map String.toList (·.splitOn ' ')]
    exact Text.splitOn_intercalate ' ' (by simpa using spanTexts_ne_nil months days nanos)
  rw [spanTexts, List.flatMap_append, List.flatMap_append, List.flatMap_append] at hwords
  exact ⟨_, _, _, _, hwords, showsCount_countTexts (by decide) _,
    showsCount_countTexts (by decide) _, showsCount_countTexts (by decide) _,
    showsTime_clockTexts months days nanos⟩

/-! ### What the parts stand for -/

/-- Parts stand for a span of so many months, days and nanoseconds. -/
structure Parts.StandFor (parts : Parts) (months days nanos : Int) : Prop where
  months_eq : 12 * parts.years + parts.months = months
  below : parts.months.natAbs < 12
  nonneg : 0 ≤ months → 0 ≤ parts.years ∧ 0 ≤ parts.months
  nonpos : months ≤ 0 → parts.years ≤ 0 ∧ parts.months ≤ 0
  days_eq : parts.days = days
  micros_eq : parts.micros = nanos.tdiv 1000
  clockless : parts.clock = none ↔ nanos = 0 ∧ (months ≠ 0 ∨ days ≠ 0)
  minus : ∀ clock, parts.clock = some clock → (clock.negative = true ↔ nanos < 0)
  whole : ∀ clock, parts.clock = some clock → (clock.fraction = 0 ↔ 1000000 ∣ nanos.tdiv 1000)

theorem signed_micros_clockOf (nanos : Int) :
    signed (clockOf nanos).negative (clockOf nanos).micros = nanos.tdiv 1000 := by
  have hmicros : (clockOf nanos).micros = nanos.natAbs / 1000 := by
    simp only [Clock.micros, clockOf]
    omega
  rw [hmicros, signed]
  by_cases hneg : nanos < 0
  · have hminus : (clockOf nanos).negative = true := decide_eq_true hneg
    have hdiv : nanos.tdiv 1000 = -(-nanos / 1000) := by
      rw [← Int.tdiv_eq_ediv_of_nonneg (by omega), Int.neg_tdiv, Int.neg_neg]
    rw [if_pos hminus, hdiv]
    omega
  · have hminus : (clockOf nanos).negative = false := decide_eq_false hneg
    rw [hminus, if_neg Bool.false_ne_true, Int.tdiv_eq_ediv_of_nonneg (by omega)]
    omega

theorem fraction_clockOf_eq_zero_iff {nanos : Int} :
    (clockOf nanos).fraction = 0 ↔ 1000000 ∣ nanos.tdiv 1000 := by
  rw [← Int.natAbs_dvd_natAbs, Int.natAbs_tdiv]
  exact (Nat.dvd_iff_mod_eq_zero ..).symm

theorem standFor_partsOf (months days nanos : Int) :
    (partsOf months days nanos).StandFor months days nanos where
  months_eq := Int.mul_tdiv_add_tmod months 12
  below := by
    rw [partsOf, Int.natAbs_tmod]
    exact Nat.mod_lt _ (by decide)
  nonneg := fun h => ⟨Int.tdiv_nonneg h (by decide), Int.tmod_nonneg 12 h⟩
  nonpos := by
    intro h
    have hyears := Int.tdiv_nonneg (Int.neg_nonneg_of_nonpos h) (by decide : (0 : Int) ≤ 12)
    have hmonths := Int.tmod_nonneg 12 (Int.neg_nonneg_of_nonpos h)
    rw [Int.neg_tdiv] at hyears
    rw [Int.neg_tmod] at hmonths
    exact ⟨by simpa [partsOf] using hyears, by simpa [partsOf] using hmonths⟩
  days_eq := rfl
  micros_eq := by
    have hclock := signed_micros_clockOf nanos
    unfold Parts.micros partsOf
    split_ifs with hnone
    · simp [hnone.1]
    · exact hclock
  clockless := by
    simp only [partsOf, ite_eq_left_iff, reduceCtorEq, imp_false, not_not]
  minus := by
    intro clock hclock
    obtain ⟨-, rfl⟩ : _ ∧ clockOf nanos = clock := by simpa [partsOf] using hclock
    exact decide_eq_true_iff
  whole := by
    intro clock hclock
    obtain ⟨-, rfl⟩ : _ ∧ clockOf nanos = clock := by simpa [partsOf] using hclock
    exact fraction_clockOf_eq_zero_iff

/-- The text of a span as a way to write the span down. -/
structure ReadsBack (months days nanos : Int) : Prop where
  shown : ∃ parts : Parts, parts.ShownBy (spanText months days nanos) ∧
    parts.StandFor months days nanos
  read : ∀ parts : Parts, parts.ShownBy (spanText months days nanos) →
    readParts (spanText months days nanos) = parts
  determined : ∀ months' days' nanos', spanText months' days' nanos' = spanText months days nanos →
    months' = months ∧ days' = days ∧ nanos'.tdiv 1000 = nanos.tdiv 1000

theorem readsBack_spanText (months days nanos : Int) : ReadsBack months days nanos := by
  constructor
  case shown =>
    exact ⟨partsOf months days nanos, shownBy_spanText months days nanos,
      standFor_partsOf months days nanos⟩
  case read => exact fun parts hparts => hparts.readParts_eq
  case determined =>
    intro months' days' nanos' htext
    have hparts : partsOf months' days' nanos' = partsOf months days nanos := by
      rw [← (shownBy_spanText months days nanos).readParts_eq, ← htext,
        (shownBy_spanText months' days' nanos').readParts_eq]
    have hthis := standFor_partsOf months days nanos
    have hthat := standFor_partsOf months' days' nanos'
    rw [hparts] at hthat
    exact ⟨hthat.months_eq.symm.trans hthis.months_eq, hthat.days_eq.symm.trans hthis.days_eq,
      hthat.micros_eq.symm.trans hthis.micros_eq⟩

/-- Less than a microsecond shows in the sign only. -/
example : spanText (-14) 1 (-500) = "-1 year -2 months 1 day -00:00:00" := by cbv

end LiveTables.Time
