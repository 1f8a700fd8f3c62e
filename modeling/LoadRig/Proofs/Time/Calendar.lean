import LoadRig.Proofs.Text.Digits
import LoadRig.Time.Rfc3339
import Mathlib.Tactic.IntervalCases
/-!
# Dates are dates

The date of a day count is found by arithmetic alone, and nothing in it says that the result is a day
of a month. Inside an era a day has a century, a cycle of four years, a year of the cycle and a day of
the year, counted from March; only the last year of a cycle has a day 365, and only the last cycle of
the last century keeps its own. With the day count taken apart in this way the divisions by 1460,
36524 and 146096 come out as the year, and the day 365 lies in a leap year.

## Main definitions

* `LoadRig.Time.EraDay` — a day of an era by century, cycle, year and day.
* `LoadRig.Time.Date.fromMarch` — the date of a day of a year that begins in March.

## Main results

* `LoadRig.Time.Date.ofDays_eq` — the date of a day count that was taken apart.
* `LoadRig.Time.Date.valid_ofDays` — every date is a day of a month.
-/

namespace LoadRig.Time

open LoadRig.Text

/-- A day of an era, taken apart: its century, the cycle of four years in it, the year of the cycle
and the day of the year. A year has a day 365 if it is the last one of its cycle, and the last cycle
of a century has such a year only in the last century. -/
structure EraDay where
  century : Nat
  cycle : Nat
  year : Nat
  day : Nat
  century_le : century ≤ 3
  cycle_le : cycle ≤ 24
  year_le : year ≤ 3
  day_le : day ≤ 365
  leap : day = 365 → year = 3 ∧ (cycle = 24 → century = 3)

namespace EraDay

/-- The place of the day in the era. -/
def place (e : EraDay) : Nat := 36524 * e.century + 1461 * e.cycle + 365 * e.year + e.day

/-- The year in the era. -/
def yearOfEra (e : EraDay) : Nat := 100 * e.century + 4 * e.cycle + e.year

/-- Every day of an era can be taken apart. -/
theorem exists_place {n : Nat} (h : n < daysPerEra) : ∃ e : EraDay, e.place = n := by
  unfold daysPerEra at h
  let century := min (n / 36524) 3
  let cycle := (n - 36524 * century) / 1461
  let year := min ((n - 36524 * century - 1461 * cycle) / 365) 3
  let day := n - 36524 * century - 1461 * cycle - 365 * year
  refine ⟨{ century, cycle, year, day, century_le := ?_, cycle_le := ?_, year_le := ?_,
            day_le := ?_, leap := ?_ }, ?_⟩
  case refine_6 => show 36524 * century + 1461 * cycle + 365 * year + day = n; omega
  all_goals omega

theorem place_lt (e : EraDay) : e.place < daysPerEra := by
  have hc := e.century_le
  have hq := e.cycle_le
  have hy := e.year_le
  have hd := e.day_le
  have hl := e.leap
  rw [place, daysPerEra]
  omega

/-- The divisions of the calendar give the year. -/
theorem yearOfEra_eq (e : EraDay) :
    (e.place - e.place / 1460 + e.place / 36524 - e.place / 146096) / 365 = e.yearOfEra := by
  have hc := e.century_le
  have hq := e.cycle_le
  have hy := e.year_le
  have hd := e.day_le
  have hl := e.leap
  rw [yearOfEra, place]
  generalize hn : 36524 * e.century + 1461 * e.cycle + 365 * e.year + e.day = n
  have hle : n / 146096 ≤ n / 36524 := by omega
  have hcentury : n / 36524 - n / 146096 = e.century := by omega
  omega

theorem day_eq (e : EraDay) :
    e.place - (365 * e.yearOfEra + e.yearOfEra / 4 - e.yearOfEra / 100) = e.day := by
  have hc := e.century_le
  have hq := e.cycle_le
  have hy := e.year_le
  rw [yearOfEra, place]
  omega

end EraDay

theorem isLeap_iff {year : Int} :
    isLeap year = true ↔ year % 4 = 0 ∧ (year % 100 ≠ 0 ∨ year % 400 = 0) := by
  simp [isLeap]

theorem daysIn_le (year : Int) (month : Nat) : daysIn year month ≤ 31 := by
  simp only [daysIn]
  split
  case h_12 => split <;> decide
  all_goals decide

namespace Date

theorem fdiv_daysPerEra (n : Int) : n.fdiv daysPerEra = n / 146097 :=
  Int.fdiv_eq_ediv_of_nonneg n (by decide)

theorem fmod_daysPerEra (n : Int) : n.fmod daysPerEra = n % 146097 :=
  Int.fmod_eq_emod_of_nonneg n (by decide)

/-- The date of a day of a year that begins in March. -/
def fromMarch (year : Int) (day : Nat) : Date :=
  let monthsOn := (5 * day + 2) / 153
  let month := if monthsOn < 10 then monthsOn + 3 else monthsOn - 9
  { year := year + if month ≤ 2 then 1 else 0
    month
    day := day - (153 * monthsOn + 2) / 5 + 1 }

/-- **The date of a day count that was taken apart.** -/
theorem ofDays_eq {days era : Int} {e : EraDay}
    (h : days + 719468 = era * daysPerEra + e.place) :
    ofDays days = fromMarch (era * 400 + e.yearOfEra) e.day := by
  have hlt := e.place_lt
  unfold daysPerEra at h hlt
  have hera : (days + 719468).fdiv daysPerEra = era := by
    rw [fdiv_daysPerEra]; omega
  have hplace : ((days + 719468).fmod daysPerEra).toNat = e.place := by
    rw [fmod_daysPerEra]; omega
  rw [ofDays, fromMarch]
  simp only [hera, hplace, e.yearOfEra_eq, e.day_eq]

/-- Every day count can be taken apart. -/
theorem exists_eraDay (days : Int) :
    ∃ (era : Int) (e : EraDay), days + 719468 = era * daysPerEra + e.place := by
  have hmod : ((days + 719468) % 146097).toNat < daysPerEra := by
    unfold daysPerEra; omega
  obtain ⟨e, he⟩ := EraDay.exists_place hmod
  refine ⟨(days + 719468) / 146097, e, ?_⟩
  rw [he, daysPerEra]
  omega

/-- A date is a day of a month. -/
def Valid (d : Date) : Prop :=
  1 ≤ d.month ∧ d.month ≤ 12 ∧ 1 ≤ d.day ∧ d.day ≤ daysIn d.year d.month

/-- The day of a year that begins in March lies in its month; the last month is February. -/
theorem valid_fromMarch {year : Int} {day : Nat} (h : day ≤ 365)
    (hleap : day = 365 → isLeap (year + 1) = true) : (fromMarch year day).Valid := by
  obtain ⟨m, hm⟩ : ∃ m, (5 * day + 2) / 153 = m := ⟨_, rfl⟩
  have hle : m ≤ 11 := by omega
  rw [fromMarch, Valid]
  simp only [hm]
  interval_cases m
  case «11» =>
    refine ⟨by decide, by decide, by omega, ?_⟩
    show day - 337 + 1 ≤ if isLeap (year + 1) then 29 else 28
    split
    · omega
    · next hno =>
      have hday : day ≠ 365 := fun hd => hno (hleap hd)
      omega
  all_goals
    refine ⟨by decide, by decide, by omega, ?_⟩
    simp only [daysIn]
    norm_num
    omega

/-- The only day 365 of a year is that of a leap year. -/
theorem isLeap_of_day (era : Int) (e : EraDay) (h : e.day = 365) :
    isLeap (era * 400 + e.yearOfEra + 1) = true := by
  obtain ⟨hyear, hcycle⟩ := e.leap h
  have hc := e.century_le
  have hq := e.cycle_le
  rw [isLeap_iff, EraDay.yearOfEra, hyear]
  omega

/-- **Every date is a day of a month.** -/
theorem valid_ofDays (days : Int) : (ofDays days).Valid := by
  obtain ⟨era, e, h⟩ := exists_eraDay days
  rw [ofDays_eq h]
  exact valid_fromMarch e.day_le fun hday => isLeap_of_day era e hday

end Date

end LoadRig.Time
