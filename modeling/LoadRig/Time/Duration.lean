import LoadRig.Text.Digits
import LoadRig.Word
/-!
# Spans of time

A duration is a count of whole seconds below `2 ^ 64` and a count of nanoseconds below `10 ^ 9`.
Multiplication works on the two parts: the nanoseconds are multiplied first, whole seconds are
carried over, and the result stops at the longest duration when the seconds no longer fit.

The type carries its two bounds, so every operation that builds a duration shows that it keeps
them. `Duration.toNanos` is the view in which the laws are stated.

## Main definitions

* `LoadRig.Duration` — seconds and nanoseconds.
* `LoadRig.Duration.ofMillis`, `LoadRig.Duration.toNanos`, `LoadRig.Duration.longest`
* `LoadRig.Duration.saturatingMul` — a whole multiple, at most the longest duration.
* `LoadRig.Duration.text` — the duration in the largest unit in which it is at least one.
-/

namespace LoadRig

/-- Nanoseconds in a second. -/
def nanosPerSecond : Nat := 1000000000

/-- A span of time in seconds and nanoseconds. -/
structure Duration where
  seconds : Nat
  nanos : Nat
  seconds_lt : seconds < wideLimit := by decide
  nanos_lt : nanos < nanosPerSecond := by decide
deriving DecidableEq, Repr

namespace Duration

/-- No time at all. -/
def zero : Duration := { seconds := 0, nanos := 0 }

instance : Inhabited Duration := ⟨zero⟩

/-- The longest duration. -/
def longest : Duration := { seconds := wordMax, nanos := nanosPerSecond - 1 }

/-- A number of milliseconds below `2 ^ 64`; a larger one is taken modulo that. -/
def ofMillis (ms : Nat) : Duration :=
  { seconds := ms % wideLimit / 1000
    nanos := ms % 1000 * 1000000
    seconds_lt := by unfold wideLimit; omega
    nanos_lt := by unfold nanosPerSecond; omega }

/-- A duration from its two parts, of which the seconds are taken modulo `2 ^ 64` and the
nanoseconds modulo `10 ^ 9`. -/
def ofParts (seconds nanos : Nat) : Duration :=
  { seconds := seconds % wideLimit
    nanos := nanos % nanosPerSecond
    seconds_lt := Nat.mod_lt _ (by decide)
    nanos_lt := Nat.mod_lt _ (by decide) }

/-- The duration as a number of nanoseconds. -/
def toNanos (d : Duration) : Nat := d.seconds * nanosPerSecond + d.nanos

/-- Whole milliseconds, rounded down. -/
def toMillis (d : Duration) : Nat := d.toNanos / 1000000

/-- A whole multiple: nanoseconds first, then the seconds with the carry. Where the seconds do
not fit, the longest duration stands in. -/
def saturatingMul (d : Duration) (k : Nat) : Duration :=
  let total := d.nanos * k
  let seconds := d.seconds * k + total / nanosPerSecond
  if h : seconds < wideLimit then
    { seconds, nanos := total % nanosPerSecond, seconds_lt := h, nanos_lt := Nat.mod_lt _ (by decide) }
  else longest

/-! ### Text -/

/-- The digits of `n` read as a fraction with `places` places, without zeros at the end. -/
def fraction (places n : Nat) : List Char :=
  let ds := Text.padLeft places '0' (Text.digits n)
  let kept := (ds.reverse.dropWhile (· == '0')).reverse
  if kept.isEmpty then [] else '.' :: kept

/-- The duration in the largest of the units s, ms, µs and ns in which it is at least one, with
as many places as it needs. No time at all is `0ns`. -/
def text (d : Duration) : String :=
  let n := d.nanos
  String.ofList <|
    if 0 < d.seconds then Text.digits d.seconds ++ fraction 9 n ++ ['s']
    else if 1000000 ≤ n then Text.digits (n / 1000000) ++ fraction 6 (n % 1000000) ++ ['m', 's']
    else if 1000 ≤ n then Text.digits (n / 1000) ++ fraction 3 (n % 1000) ++ ['µ', 's']
    else Text.digits n ++ ['n', 's']

end Duration

end LoadRig
