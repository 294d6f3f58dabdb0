import LiveTables.Number.Decimal

/-!
# Dates and clock times

Days counted from the first of January 1970 as dates of the Gregorian calendar, which is carried on
before its introduction, and times of day as text.
-/

namespace LiveTables.Time

open LiveTables.Number

structure Date where
  year : Int
  month : Nat
  day : Nat
  deriving DecidableEq, Repr

/-- Days in a period of 400 years, after which the calendar repeats. -/
def daysPerEra : Int := 146097

/-- The date `days` days after the first of January 1970. Years are taken to begin in March, so that
the leap day is the last day of its year. -/
def Date.ofDays (days : Int) : Date :=
  let shifted := days + 719468
  let era := shifted.fdiv daysPerEra
  let dayOfEra := (shifted.fmod daysPerEra).toNat
  let yearOfEra := (dayOfEra - dayOfEra / 1460 + dayOfEra / 36524 - dayOfEra / 146096) / 365
  let dayOfYear := dayOfEra - (365 * yearOfEra + yearOfEra / 4 - yearOfEra / 100)
  let marchMonth := (5 * dayOfYear + 2) / 153
  let month := if marchMonth < 10 then marchMonth + 3 else marchMonth - 9
  { year := yearOfEra + era * 400 + (if month ≤ 2 then 1 else 0)
    month
    day := dayOfYear - (153 * marchMonth + 2) / 5 + 1 }

/-- The first and the last day that has a date. -/
def firstDay : Int := -96465292

def lastDay : Int := 95026236

/-- A year in at least four digits. One outside the years 0 to 9999 has a sign. -/
def yearText (year : Int) : String :=
  if 0 ≤ year && year ≤ 9999 then padded 4 year.toNat
  else (if year < 0 then "-" else "+") ++ padded 4 year.natAbs

def Date.render (date : Date) : String :=
  yearText date.year ++ "-" ++ padded 2 date.month ++ "-" ++ padded 2 date.day

/-- Hours, minutes and seconds of a number of seconds, with hours of any size. -/
def clockText (seconds : Nat) : String :=
  padded 2 (seconds / 3600) ++ ":" ++ padded 2 (seconds / 60 % 60) ++ ":" ++ padded 2 (seconds % 60)

/-- Millionths of a second behind a point: nothing, three digits or six. -/
def fractionText (micros : Nat) : String :=
  if micros == 0 then ""
  else if micros % 1000 == 0 then "." ++ padded 3 (micros / 1000)
  else "." ++ padded 6 micros

/-- The date of a day, or the number of the day when it has no date. -/
def dayText (day : Int) : String :=
  if firstDay ≤ day && day ≤ lastDay then (Date.ofDays day).render else toString day

def microsPerSecond : Int := 1000000

def secondsPerDay : Int := 86400

/-- A moment, in millionths of a second since the first of January 1970, as date and time of day. -/
def momentText (micros : Int) : String :=
  let seconds := micros.fdiv microsPerSecond
  let day := seconds.fdiv secondsPerDay
  if firstDay ≤ day && day ≤ lastDay then
    (Date.ofDays day).render ++ " " ++ clockText (seconds.fmod secondsPerDay).toNat ++
      fractionText (micros.fmod microsPerSecond).toNat
  else toString micros

/-- A time of day in millionths of a second, or the number when it is none. -/
def timeOfDayText (micros : Int) : String :=
  let seconds := micros.fdiv microsPerSecond
  if 0 ≤ seconds && seconds < secondsPerDay then
    clockText seconds.toNat ++ fractionText (micros.fmod microsPerSecond).toNat
  else toString micros

/-- A count with its unit, in the plural unless it is one or minus one. -/
def countText (count : Int) (unit : String) : String :=
  toString count ++ " " ++ unit ++ (if count.natAbs == 1 then "" else "s")

/-- A span of time: the parts that are not zero, or a clock of zero. The clock has the sign of its
nanoseconds and shows whole microseconds. -/
def spanText (months days nanos : Int) : String :=
  let years := months.tdiv 12
  let months := months.tmod 12
  let parts := (if years == 0 then [] else [countText years "year"]) ++
    (if months == 0 then [] else [countText months "month"]) ++
    (if days == 0 then [] else [countText days "day"])
  let micros := nanos.natAbs / 1000
  let fraction := micros % 1000000
  let clock := (if nanos < 0 then "-" else "") ++ clockText (micros / 1000000) ++
    (if fraction == 0 then "" else "." ++ padded 6 fraction)
  " ".intercalate (if nanos == 0 && !parts.isEmpty then parts else parts ++ [clock])

end LiveTables.Time
