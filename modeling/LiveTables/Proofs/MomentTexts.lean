import LiveTables.Engine.Datum
import LiveTables.Proofs.Numerals
import LiveTables.Proofs.TextRuns
import Mathlib.Tactic.Common

/-!
# Moments as days and times of day

A moment is shown as the day that it lies in and the time that has passed of this day, and it has
the same two texts there as the day and the time have alone, in each unit that moments are counted
in. Moments are shown in whole microseconds. What nanoseconds are left over is dropped towards zero,
so a moment before 1970 that has such a rest is shown as the microsecond behind the one that it lies
in.
-/

namespace LiveTables

open LiveTables.Number

namespace Time

def microsPerDay : Int := 86400000000

/-! ### Floors -/

section Floors

variable (n : Int)

theorem fdiv_microsPerSecond : n.fdiv microsPerSecond = n / 1000000 :=
  Int.fdiv_eq_ediv_of_nonneg n (by decide)

theorem fmod_microsPerSecond : n.fmod microsPerSecond = n % 1000000 :=
  Int.fmod_eq_emod_of_nonneg n (by decide)

theorem fdiv_secondsPerDay : n.fdiv secondsPerDay = n / 86400 :=
  Int.fdiv_eq_ediv_of_nonneg n (by decide)

theorem fmod_secondsPerDay : n.fmod secondsPerDay = n % 86400 :=
  Int.fmod_eq_emod_of_nonneg n (by decide)

theorem fdiv_microsPerDay : n.fdiv microsPerDay = n / 86400000000 :=
  Int.fdiv_eq_ediv_of_nonneg n (by decide)

theorem fdiv_secondsPerDay_fdiv :
    (n.fdiv microsPerSecond).fdiv secondsPerDay = n.fdiv microsPerDay := by
  rw [fdiv_microsPerSecond, fdiv_secondsPerDay, fdiv_microsPerDay]
  omega

end Floors

/-! ### The two parts of a text -/

section Moments

variable {micros : Int} (hfirst : firstDay ≤ micros.fdiv microsPerDay)
  (hlast : micros.fdiv microsPerDay ≤ lastDay)
include hfirst hlast

theorem momentText_eq : momentText micros = dayText (micros.fdiv microsPerDay) ++ " " ++
    timeOfDayText (micros - micros.fdiv microsPerDay * microsPerDay) := by
  have hday := fdiv_secondsPerDay_fdiv micros
  set passed := micros - micros.fdiv microsPerDay * microsPerDay with hpassed
  rw [fdiv_microsPerDay, microsPerDay] at hpassed
  have hseconds : (micros.fdiv microsPerSecond).fmod secondsPerDay =
      passed.fdiv microsPerSecond := by
    rw [fdiv_microsPerSecond, fmod_secondsPerDay, fdiv_microsPerSecond]
    omega
  have hmicros : micros.fmod microsPerSecond = passed.fmod microsPerSecond := by
    rw [fmod_microsPerSecond, fmod_microsPerSecond]
    omega
  have hclock : 0 ≤ passed.fdiv microsPerSecond ∧ passed.fdiv microsPerSecond < secondsPerDay := by
    rw [fdiv_microsPerSecond, secondsPerDay]
    omega
  simp only [momentText, dayText, timeOfDayText, hday, hseconds, hmicros, hfirst, hlast, hclock,
    decide_true, Bool.and_self, if_true, String.append_assoc]

end Moments

/-! ### Fractions of a second in a text -/

theorem dot_notMem_padded (width n : Nat) : '.' ∉ (padded width n).toList :=
  fun h => absurd (isDigit_of_mem_padded h) (by decide)

theorem dot_notMem_render (date : Date) : '.' ∉ date.render.toList := by
  have hyear : '.' ∉ (yearText date.year).toList := by
    unfold yearText
    split_ifs <;> simp [dot_notMem_padded]
  simp [Date.render, hyear, dot_notMem_padded]

theorem dot_notMem_clockText (seconds : Nat) : '.' ∉ (clockText seconds).toList := by
  simp [clockText, dot_notMem_padded]

theorem head?_fractionText {micros : Nat} {c : Char}
    (h : (fractionText micros).toList.head? = some c) : c = '.' := by
  unfold fractionText at h
  split_ifs at h
  · simp at h
  · simpa using h.symm
  · simpa using h.symm

/-- The millionths of a second that a text stands for, which is empty or digits behind a point. -/
def fractionValue (text : List Char) : Nat :=
  digitsValue (text.drop 1) * 10 ^ (6 - (text.drop 1).length)

theorem fractionValue_fractionText {micros : Nat} (h : micros < 1000000) :
    fractionValue (fractionText micros).toList = micros := by
  have hdrop : ∀ text : String, ("." ++ text).toList.drop 1 = text.toList := by simp
  unfold fractionText fractionValue
  split_ifs with hzero hmillis
  · rw [beq_iff_eq] at hzero
    rw [hzero]
    rfl
  · rw [beq_iff_eq] at hmillis
    rw [hdrop, digitsValue_padded, length_padded (by decide) (by omega)]
    omega
  · rw [hdrop, digitsValue_padded, length_padded (by decide) (by omega)]
    omega

/-- The fraction of a second can be read off the text of a moment. -/
theorem fractionValue_momentText {micros : Int} (hfirst : firstDay ≤ micros.fdiv microsPerDay)
    (hlast : micros.fdiv microsPerDay ≤ lastDay) :
    fractionValue ((momentText micros).toList.dropWhile (· != '.')) = (micros % 1000000).toNat := by
  rw [← fdiv_secondsPerDay_fdiv] at hfirst hlast
  simp only [momentText, hfirst, hlast, decide_true, Bool.and_self, if_true]
  set date := Date.ofDays ((micros.fdiv microsPerSecond).fdiv secondsPerDay)
  set seconds := ((micros.fdiv microsPerSecond).fmod secondsPerDay).toNat
  have hplain : ∀ c ∈ (date.render ++ " " ++ clockText seconds).toList, (c != '.') = true := by
    intro c hc
    simp only [String.toList_append, List.mem_append] at hc
    rw [bne_iff_ne]
    rintro rfl
    rcases hc with (hdate | hspace) | hclock
    · exact dot_notMem_render date hdate
    · simp at hspace
    · exact dot_notMem_clockText seconds hclock
  have hpoint : ∀ c, (fractionText (micros.fmod microsPerSecond).toNat).toList.head? = some c →
      (c != '.') = false := by
    intro c hc
    simp [head?_fractionText hc]
  rw [String.toList_append, Text.dropWhile_append_of_head hplain hpoint, fmod_microsPerSecond]
  exact fractionValue_fractionText (by omega)

end Time

namespace Engine

open LiveTables.Time

/-- The number of units in a day. -/
def TimeUnit.perDay : TimeUnit → Int
  | second => 86400
  | millisecond => 86400000
  | microsecond => 86400000000
  | nanosecond => 86400000000000

/-- The text of a moment is that of the day that it lies in and, behind a space, that of the time
that has passed of this day. -/
def ShowsDayAndTime (unit : TimeUnit) (count : Int) : Prop :=
  let day := count.fdiv unit.perDay
  (Datum.moment unit count).render =
    (Datum.day day).render ++ " " ++ (Datum.timeOfDay unit (count - day * unit.perDay)).render

/-- A moment lies before 1970 and is not a whole number of microseconds. -/
def TimeUnit.CutsShort (unit : TimeUnit) (count : Int) : Prop :=
  unit = .nanosecond ∧ count < 0 ∧ ¬ 1000 ∣ count

instance (unit : TimeUnit) (count : Int) : Decidable (unit.CutsShort count) :=
  inferInstanceAs (Decidable (_ ∧ _ ∧ _))

theorem clampWord_of_isWord {n : Int} (h : isWord n = true) : clampWord n = n := by
  simp only [isWord, Bool.and_eq_true, decide_eq_true_eq] at h
  rw [clampWord, min_eq_right h.2, max_eq_right h.1]

theorem fdiv_perDay (unit : TimeUnit) (count : Int) :
    count.fdiv unit.perDay = count / unit.perDay :=
  Int.fdiv_eq_ediv_of_nonneg count (by cases unit <;> decide)

/-- Nanoseconds become the microsecond that they lie in, but what is cut short the one behind it. -/
theorem tdiv_thousand (count : Int) : count.tdiv 1000 =
    count / 1000 + if TimeUnit.nanosecond.CutsShort count then 1 else 0 := by
  have hcuts : TimeUnit.nanosecond.CutsShort count ↔ ¬ (0 ≤ count ∨ 1000 ∣ count) := by
    simp [TimeUnit.CutsShort]
  rw [Int.tdiv_eq_ediv]
  split_ifs with hkept hcut hcut
  · exact absurd hkept (hcuts.1 hcut)
  · rfl
  · rfl
  · exact absurd (hcuts.2 hkept) hcut

section Moments

variable {unit : TimeUnit} {count : Int} (hfirst : firstDay ≤ count.fdiv unit.perDay)
  (hlast : count.fdiv unit.perDay ≤ lastDay)
include hfirst hlast

/-- On a day that has a date no unit leaves the range of 64 bits in microseconds, so that the
microseconds of a moment are those of its day and of the time passed. -/
theorem toMicros_split (h : ¬ unit.CutsShort count) :
    (unit.toMicros count).fdiv microsPerDay = count.fdiv unit.perDay ∧
      unit.toMicros count - count.fdiv unit.perDay * microsPerDay =
        unit.toMicros (count - count.fdiv unit.perDay * unit.perDay) := by
  have hclamp : ∀ n, wordMin ≤ n → n ≤ wordMax → clampWord n = n := fun n hlow hhigh =>
    clampWord_of_isWord (by simp [isWord, hlow, hhigh])
  simp only [wordMin, wordMax] at hclamp
  simp only [fdiv_perDay, firstDay, lastDay] at hfirst hlast
  rw [fdiv_perDay, fdiv_microsPerDay, microsPerDay]
  cases unit with
  | second =>
      simp only [TimeUnit.perDay, TimeUnit.toMicros] at *
      rw [hclamp (count * 1000000) (by omega) (by omega), hclamp _ (by omega) (by omega)]
      omega
  | millisecond =>
      simp only [TimeUnit.perDay, TimeUnit.toMicros] at *
      rw [hclamp (count * 1000) (by omega) (by omega), hclamp _ (by omega) (by omega)]
      omega
  | microsecond => exact ⟨rfl, rfl⟩
  | nanosecond =>
      simp only [TimeUnit.perDay, TimeUnit.toMicros] at *
      have hpassed : 0 ≤ count - count / 86400000000000 * 86400000000000 := by omega
      rw [tdiv_thousand, if_neg h, Int.tdiv_eq_ediv_of_nonneg hpassed]
      omega

theorem showsDayAndTime_of_not_cutsShort (h : ¬ unit.CutsShort count) :
    ShowsDayAndTime unit count := by
  obtain ⟨hday, hpassed⟩ := toMicros_split hfirst hlast h
  rw [← hday] at hfirst hlast
  simp only [ShowsDayAndTime, Datum.render]
  rw [momentText_eq hfirst hlast, hday, hpassed]

/-- The microsecond behind a moment that is cut short lies on a day that has a date, too. -/
theorem firstDay_le_of_cutsShort (h : unit.CutsShort count) :
    firstDay ≤ (count / 1000 + 1).fdiv microsPerDay ∧
      (count / 1000 + 1).fdiv microsPerDay ≤ lastDay := by
  obtain ⟨rfl, hneg, -⟩ := h
  rw [fdiv_perDay, TimeUnit.perDay] at hfirst
  rw [fdiv_microsPerDay, lastDay]
  omega

theorem not_showsDayAndTime_of_cutsShort (h : unit.CutsShort count) :
    ¬ ShowsDayAndTime unit count := by
  obtain ⟨hfirst', hlast'⟩ := firstDay_le_of_cutsShort hfirst hlast h
  obtain ⟨rfl, -, -⟩ := id h
  have hday : (count / 1000).fdiv microsPerDay = count.fdiv TimeUnit.nanosecond.perDay := by
    rw [fdiv_microsPerDay, fdiv_perDay, TimeUnit.perDay]
    omega
  have hpassed : (count - count.fdiv TimeUnit.nanosecond.perDay *
      TimeUnit.nanosecond.perDay).tdiv 1000 =
        count / 1000 - (count / 1000).fdiv microsPerDay * microsPerDay := by
    rw [hday, fdiv_perDay, TimeUnit.perDay, microsPerDay, Int.tdiv_eq_ediv_of_nonneg (by omega)]
    omega
  rw [← hday] at hfirst hlast
  -- both texts have a fraction of a second that can be read off, one a millionth behind the other
  intro hshows
  simp only [ShowsDayAndTime, Datum.render, TimeUnit.toMicros, tdiv_thousand count, if_pos h,
    hpassed] at hshows
  rw [← hday, ← momentText_eq hfirst hlast] at hshows
  have hvalue := fractionValue_momentText hfirst' hlast'
  rw [hshows, fractionValue_momentText hfirst hlast] at hvalue
  omega

/-- A moment on a day that has a date is shown as that day and the time passed of it exactly if it
is not cut short, and else as the day and the time of the microsecond behind it. -/
theorem showsDayAndTime_iff : (ShowsDayAndTime unit count ↔ ¬ unit.CutsShort count) ∧
    (unit.CutsShort count → ShowsDayAndTime .microsecond (count / 1000 + 1) ∧
      (Datum.moment unit count).render =
        (Datum.moment .microsecond (count / 1000 + 1)).render) := by
  constructor
  · constructor
    · intro hshows hcut
      exact not_showsDayAndTime_of_cutsShort hfirst hlast hcut hshows
    · exact showsDayAndTime_of_not_cutsShort hfirst hlast
  · intro hcut
    obtain ⟨hfirst', hlast'⟩ := firstDay_le_of_cutsShort hfirst hlast hcut
    obtain ⟨rfl, -, -⟩ := id hcut
    constructor
    · exact showsDayAndTime_of_not_cutsShort hfirst' hlast' fun hmicros => nomatch hmicros.1
    · rw [Datum.render, Datum.render, TimeUnit.toMicros, TimeUnit.toMicros, tdiv_thousand,
        if_pos hcut]

end Moments

/-- A moment a microsecond and a half before 1970 is cut short. -/
theorem showsDayAndTime_iff_before_1970 :
    firstDay ≤ Int.fdiv (-1500) TimeUnit.nanosecond.perDay ∧
      Int.fdiv (-1500) TimeUnit.nanosecond.perDay ≤ lastDay ∧
      (ShowsDayAndTime .nanosecond (-1500) ↔ ¬ TimeUnit.nanosecond.CutsShort (-1500)) ∧
      TimeUnit.nanosecond.CutsShort (-1500) ∧
      (Datum.moment .nanosecond (-1500)).render = (Datum.moment .microsecond (-1)).render := by
  have hfirst : firstDay ≤ Int.fdiv (-1500) TimeUnit.nanosecond.perDay := by decide
  have hlast : Int.fdiv (-1500) TimeUnit.nanosecond.perDay ≤ lastDay := by decide
  have hcut : TimeUnit.nanosecond.CutsShort (-1500) := by decide
  obtain ⟨hshows, hbehind⟩ := showsDayAndTime_iff hfirst hlast
  exact ⟨hfirst, hlast, hshows, hcut, (hbehind hcut).2⟩

/-- The last nanosecond before 1970 is shown as the first of 1970. -/
theorem not_showsDayAndTime_last_nanosecond :
    firstDay ≤ Int.fdiv (-1) TimeUnit.nanosecond.perDay ∧
      Int.fdiv (-1) TimeUnit.nanosecond.perDay ≤ lastDay ∧ ¬ ShowsDayAndTime .nanosecond (-1) := by
  refine ⟨by decide, by decide, ?_⟩
  unfold ShowsDayAndTime
  decide +kernel

end Engine

end LiveTables
