import LoadRig.Proofs.Time.Calendar
import LoadRig.Proofs.Time.Rfc3339
/-!
# The written form of a moment is a timestamp

A moment is written as its date and its time of day, and what is written follows the grammar of
timestamps as long as the year has four digits. A year before 0 or after 9999 is written with a sign,
which the grammar does not know. A leap second is written as second sixty, which the grammar allows.

## Main definitions

* `LoadRig.Time.Instant.year` — the year of a moment in universal time.

## Main results

* `LoadRig.Time.isTimestamp_text_iff` — the written form is a timestamp exactly for these years.
-/

namespace LoadRig.Time

open LoadRig.Text

/-- The year of a moment in universal time. -/
def Instant.year (i : Instant) : Int := (Date.ofDays (i.seconds.fdiv daySeconds)).year

/-! ### Fields -/

/-- A number that was written with leading zeros has its digits. -/
theorem number_padLeft {width n : Nat} (hw : 0 < width) (h : n < 10 ^ width) :
    Number width n (padLeft width '0' (digits n)) where
  length_eq := length_padLeft (length_digits_le hw h)
  digit := List.all_eq_true.mp (all_isDigit_padLeft width n)
  value_eq := (digitsValue_padLeft ..).trans (digitsValue_digits n)

theorem number_two {n : Nat} (h : n < 100) : Number 2 n (two n) := number_padLeft (by decide) h

/-- The thousandths of a second are a fraction. -/
theorem secondsFraction_padLeft (n : Nat) : SecondsFraction ('.' :: padLeft 3 '0' (digits n)) :=
  ⟨_, .digits ⟨by simp [padLeft, digits_ne_nil], List.all_eq_true.mp (all_isDigit_padLeft 3 n)⟩⟩

/-- A sign is no digit. -/
theorem takeNumber?_sign {c : Char} (h : c.isDigit = false) (n : Nat) (rest : List Char) :
    takeNumber? (n + 1) (c :: rest) = none := by
  simp [takeNumber?, h]

/-! ### Whole timestamps -/

/-- What is no year is no timestamp. -/
theorem isTimestamp_of_takeNumber?_eq_none {cs : List Char} (h : takeNumber? 4 cs = none) :
    isTimestamp cs = false := by
  rw [isTimestamp, h]
  rfl

/-- What follows the year in the written form of a moment. -/
def tailText (date : Date) (ofDay leap milli : Nat) : List Char :=
  '-' :: (two date.month ++ '-' :: (two date.day ++ 'T' :: (two (ofDay / 3600) ++
    ':' :: (two (ofDay / 60 % 60) ++ ':' :: (two (ofDay % 60 + leap) ++
      '.' :: (padLeft 3 '0' (digits milli) ++ ['Z']))))))

/-- A year of four digits, a valid date and a time of day make a timestamp. -/
theorem isTimestamp_tailText {year : Nat} (hy : year ≤ 9999) {date : Date} (hd : date.Valid)
    (hyear : date.year = year) {ofDay leap milli : Nat} (hday : ofDay < 86400) (hleap : leap ≤ 1) :
    isTimestamp (padLeft 4 '0' (digits year) ++ tailText date ofDay leap milli) = true := by
  obtain ⟨hm1, hm12, hd1, hdin⟩ := hd
  have hd31 : date.day ≤ 31 := hdin.trans (daysIn_le _ _)
  rw [hyear] at hdin
  have hhour : ofDay / 3600 ≤ 23 := by omega
  have hminute : ofDay / 60 % 60 ≤ 59 := by omega
  have hsecond : ofDay % 60 + leap ≤ 60 := by omega
  have hfour : Number 4 year (padLeft 4 '0' (digits year)) :=
    number_padLeft (by decide) (show year < 10 ^ 4 by omega)
  have htwo {n : Nat} (h : n ≤ 60) : Number 2 n (two n) := number_two (by omega)
  have hspelled : TimestampSpelled offsetSigns _ :=
    .mk hfour (htwo (by omega)) (htwo (by omega)) ⟨hm1, hm12, hd1, hdin⟩ (.inl rfl)
      (htwo (by omega)) (htwo (by omega)) (htwo hsecond) ⟨hhour, hminute, hsecond⟩
      (secondsFraction_padLeft milli) (.utc (.inl rfl))
  rw [List.cons_append] at hspelled
  exact isTimestamp_iff.mpr hspelled

/-- **The written form of a moment is a timestamp exactly if the year has four digits.** -/
theorem isTimestamp_text_iff (i : Instant) :
    isTimestamp i.text = true ↔ 0 ≤ i.year ∧ i.year ≤ 9999 := by
  obtain ⟨date, hdate⟩ : ∃ date, Date.ofDays (i.seconds.fdiv daySeconds) = date := ⟨_, rfl⟩
  have hvalid : date.Valid := hdate ▸ Date.valid_ofDays _
  have hyear : i.year = date.year := congrArg Date.year hdate
  have hday : (i.seconds.fmod daySeconds).toNat < 86400 := by
    rw [Int.fmod_eq_emod_of_nonneg _ (by decide)]
    rw [daySeconds]
    omega
  have htext : i.text = yearText date.year ++ tailText date (i.seconds.fmod daySeconds).toNat
      (if nanosPerSecond ≤ i.nanos then 1 else 0) (i.nanos % nanosPerSecond / 1000000) := by
    simp only [Instant.text, hdate, tailText, List.append_assoc, List.cons_append]
  rw [htext, hyear, yearText]
  split
  · next hneg =>
    have hnot : ¬ (0 ≤ date.year ∧ date.year ≤ 9999) := by omega
    simp [isTimestamp_of_takeNumber?_eq_none (takeNumber?_sign _ 3 _), hnot]
  · split
    · next hbig =>
      have hnot : ¬ (0 ≤ date.year ∧ date.year ≤ 9999) := by omega
      simp [isTimestamp_of_takeNumber?_eq_none (takeNumber?_sign _ 3 _), hnot]
    · have hin : 0 ≤ date.year ∧ date.year ≤ 9999 := by omega
      refine iff_of_true ?_ hin
      exact isTimestamp_tailText (by omega) hvalid (by omega) hday (by split <;> omega)

end LoadRig.Time
