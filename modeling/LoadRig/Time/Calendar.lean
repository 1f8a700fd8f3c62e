import LoadRig.Text.Digits
import LoadRig.Time.Duration
/-!
# Dates and moments

A moment of the world clock is a number of seconds since the start of 1970 and a number of
nanoseconds. A leap second is a nanosecond count of `10 ^ 9` or more within the last second of a
minute; it is written as second sixty. Dates are those of the proleptic Gregorian calendar, found
by counting whole eras of 400 years, which have 146097 days each.

## Main definitions

* `LoadRig.Time.Instant` — a moment of the world clock.
* `LoadRig.Time.Date`, `LoadRig.Time.Date.ofDays` — the date that is so many days after
  1970-01-01.
* `LoadRig.Time.daysIn` — the length of a month.
* `LoadRig.Time.Instant.text` — the moment to the millisecond, with the letter of universal time.
-/

namespace LoadRig.Time

open LoadRig.Text

/-- Seconds since the start of 1970 and nanoseconds within the second. From `10 ^ 9` on the
nanoseconds belong to a leap second. -/
structure Instant where
  seconds : Int
  nanos : Nat
deriving DecidableEq, Repr

/-- A date of the proleptic Gregorian calendar. -/
structure Date where
  year : Int
  month : Nat
  day : Nat
deriving DecidableEq, Repr

/-- Whether a year has a twenty-ninth of February. -/
def isLeap (year : Int) : Bool :=
  year % 4 == 0 && (year % 100 != 0 || year % 400 == 0)

/-- The number of days in a month; zero for a month that does not exist. -/
def daysIn (year : Int) (month : Nat) : Nat :=
  match month with
  | 1 | 3 | 5 | 7 | 8 | 10 | 12 => 31
  | 4 | 6 | 9 | 11 => 30
  | 2 => if isLeap year then 29 else 28
  | _ => 0

/-- The days in an era of 400 years. -/
def daysPerEra : Nat := 146097

/-- The date that is `days` after 1970-01-01. Years are counted from March inside an era, so that
the leap day is the last of its year. -/
def Date.ofDays (days : Int) : Date :=
  let shifted := days + 719468
  let era := shifted.fdiv daysPerEra
  let dayOfEra := (shifted.fmod daysPerEra).toNat
  let yearOfEra := (dayOfEra - dayOfEra / 1460 + dayOfEra / 36524 - dayOfEra / 146096) / 365
  let dayOfYear := dayOfEra - (365 * yearOfEra + yearOfEra / 4 - yearOfEra / 100)
  let fromMarch := (5 * dayOfYear + 2) / 153
  let month := if fromMarch < 10 then fromMarch + 3 else fromMarch - 9
  { year := era * 400 + yearOfEra + if month ≤ 2 then 1 else 0
    month
    day := dayOfYear - (153 * fromMarch + 2) / 5 + 1 }

/-- A year in four digits; outside of 0 to 9999 with a sign. -/
def yearText (year : Int) : List Char :=
  if year < 0 then '-' :: padLeft 4 '0' (digits year.natAbs)
  else if 9999 < year then '+' :: digits year.natAbs
  else padLeft 4 '0' (digits year.natAbs)

/-- A number in two digits. -/
def two (n : Nat) : List Char := padLeft 2 '0' (digits n)

/-- Seconds in a day. -/
def daySeconds : Nat := 86400

/-- The moment as a date and a time of day to the millisecond, in universal time. -/
def Instant.text (i : Instant) : List Char :=
  let date := Date.ofDays (i.seconds.fdiv daySeconds)
  let ofDay := (i.seconds.fmod daySeconds).toNat
  let leap := if nanosPerSecond ≤ i.nanos then 1 else 0
  yearText date.year ++ '-' :: two date.month ++ '-' :: two date.day ++
    'T' :: two (ofDay / 3600) ++ ':' :: two (ofDay / 60 % 60) ++
    ':' :: two (ofDay % 60 + leap) ++
    '.' :: padLeft 3 '0' (digits (i.nanos % nanosPerSecond / 1000000)) ++ ['Z']

end LoadRig.Time
