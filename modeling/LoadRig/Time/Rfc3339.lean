import LoadRig.Time.Calendar
/-!
# The timestamp grammar

A timestamp is a date, one of `T`, `t` and a space, a time of day and an offset from universal
time. All numbers have two digits except the year, which has four, and the optional fraction of a
second, which has one or more. Only whether a text follows the grammar matters here; the moment
that it names is never used.

## Main definitions

* `LoadRig.Time.isTimestamp` — the check.
-/

namespace LoadRig.Time

open LoadRig.Text

/-- Reads exactly `n` ASCII digits. -/
def takeNumber? (n : Nat) (cs : List Char) : Option (Nat × List Char) :=
  if (cs.take n).length = n ∧ (cs.take n).all Char.isDigit then
    some (digitsValue (cs.take n), cs.drop n)
  else none

/-- Takes one character that satisfies a test. -/
def takeChar? (p : Char → Bool) : List Char → Option (List Char)
  | [] => none
  | c :: cs => if p c then some cs else none

/-- A minus sign in an offset may be the hyphen or the mathematical sign. -/
def isOffsetSign (c : Char) : Bool := c == '+' || c == '-' || c == '\u2212'

/-- Whether a text is an offset and nothing else: the letter of universal time, or a sign with
hours and minutes. -/
def isOffset (cs : List Char) : Bool :=
  match cs with
  | ['Z'] | ['z'] => true
  | _ =>
    (do
      let cs ← takeChar? isOffsetSign cs
      let (hours, cs) ← takeNumber? 2 cs
      let cs ← takeChar? (· == ':') cs
      let (minutes, cs) ← takeNumber? 2 cs
      return hours ≤ 23 && minutes ≤ 59 && cs.isEmpty).getD false

/-- Drops a fraction of a second, if one is there; a point without digits is no fraction. -/
def dropFraction? (cs : List Char) : Option (List Char) :=
  match cs with
  | '.' :: rest =>
    if (rest.takeWhile Char.isDigit).isEmpty then none else some (rest.dropWhile Char.isDigit)
  | _ => some cs

/-- Whether a year, month and day name a date. -/
def isDate (year month day : Nat) : Bool :=
  1 ≤ month && month ≤ 12 && 1 ≤ day && day ≤ daysIn year month

/-- Whether a text is a timestamp and nothing else. -/
def isTimestamp (cs : List Char) : Bool :=
  (do
    let (year, cs) ← takeNumber? 4 cs
    let cs ← takeChar? (· == '-') cs
    let (month, cs) ← takeNumber? 2 cs
    let cs ← takeChar? (· == '-') cs
    let (day, cs) ← takeNumber? 2 cs
    let cs ← takeChar? (fun c => c == 'T' || c == 't' || c == ' ') cs
    let (hour, cs) ← takeNumber? 2 cs
    let cs ← takeChar? (· == ':') cs
    let (minute, cs) ← takeNumber? 2 cs
    let cs ← takeChar? (· == ':') cs
    let (second, cs) ← takeNumber? 2 cs
    let cs ← dropFraction? cs
    return isDate year month day && hour ≤ 23 && minute ≤ 59 && second ≤ 60 &&
      isOffset cs).getD false

end LoadRig.Time
