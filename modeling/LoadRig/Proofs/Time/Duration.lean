import LoadRig.Time.Duration
/-!
# Multiples of a duration

Seen as a number of nanoseconds, a whole multiple of a duration is the multiple of the number, unless
that goes beyond the longest duration. The carry from nanoseconds to seconds leaves no trace.

## Main results

* `LoadRig.Duration.toNanos_saturatingMul` — a multiple in nanoseconds.
-/

namespace LoadRig

namespace Duration

/-- One more nanosecond than the longest duration would need one more second than there are. -/
theorem toNanos_longest : longest.toNanos + 1 = wideLimit * nanosPerSecond := by decide

/-- **A whole multiple in nanoseconds**, which stops at the longest duration. -/
theorem toNanos_saturatingMul (d : Duration) (k : Nat) :
    (d.saturatingMul k).toNanos = min (d.toNanos * k) longest.toNanos := by
  have hlong := toNanos_longest
  have hsplit : d.toNanos * k
      = (d.seconds * k + d.nanos * k / nanosPerSecond) * nanosPerSecond
        + d.nanos * k % nanosPerSecond := by
    rw [toNanos, Nat.add_mul, Nat.add_mul, Nat.add_assoc, Nat.div_add_mod', Nat.mul_right_comm]
  have hmod : d.nanos * k % nanosPerSecond < nanosPerSecond := Nat.mod_lt _ (by decide)
  rw [saturatingMul]
  split
  · next hfits =>
    -- the seconds fit, so the whole is not longer than the longest duration
    have hle : (d.seconds * k + d.nanos * k / nanosPerSecond + 1) * nanosPerSecond
        ≤ wideLimit * nanosPerSecond := Nat.mul_le_mul_right _ hfits
    rw [Nat.add_mul, Nat.one_mul] at hle
    rw [hsplit, Nat.min_eq_left (by omega), toNanos]
  · next hlong' =>
    have hle : wideLimit * nanosPerSecond
        ≤ (d.seconds * k + d.nanos * k / nanosPerSecond) * nanosPerSecond :=
      Nat.mul_le_mul_right _ (Nat.le_of_not_lt hlong')
    rw [hsplit, Nat.min_eq_right (by omega)]

end Duration

end LoadRig
