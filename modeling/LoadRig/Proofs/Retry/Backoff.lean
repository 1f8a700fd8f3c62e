import LoadRig.Proofs.Time.Duration
import LoadRig.Retry
import Mathlib.Algebra.Order.Ring.Nat
/-!
# Pauses that double

The pause after a failed attempt is the base, doubled once for each attempt before. Two things stand
in the way of doubling for ever. The factor is a number of thirty-two bits, so from the
thirty-second doubling on it is the greatest such number, which is not a power of two. And no pause
is longer than the longest duration. Neither of the two ever makes a later pause shorter, or the pause
of a longer base shorter than that of a shorter one.

The longest duration has an odd number of nanoseconds. A pause that was cut to it is therefore not
twice the pause before, so the pauses double exactly as long as they are not cut.

## Main results

* `LoadRig.RetrySettings.backoffFactor_eq` — the factor without a case distinction.
* `LoadRig.RetrySettings.toNanos_backoff_eq` — the pause in nanoseconds.
* `LoadRig.RetrySettings.toNanos_backoff_mono` — later pauses of longer bases are not shorter.
* `LoadRig.RetrySettings.doubles_iff` — when a pause is twice the one before.
* `LoadRig.RetrySettings.backoff_exact` — all of this together.
-/

namespace LoadRig

namespace RetrySettings

variable {s t : RetrySettings} {attempt later : Nat}

/-! ### The factor -/

/-- The power of two, or the greatest number of thirty-two bits if that is smaller. -/
theorem backoffFactor_eq (attempt : Nat) : backoffFactor attempt = min (2 ^ attempt) (2 ^ 32 - 1) := by
  rw [backoffFactor]
  split
  · next h =>
    have hle : 2 ^ attempt ≤ 2 ^ 31 := Nat.pow_le_pow_right (by decide) (by omega)
    exact (Nat.min_eq_left (hle.trans (by decide))).symm
  · next h =>
    have hle : 2 ^ 32 ≤ 2 ^ attempt := Nat.pow_le_pow_right (by decide) (by omega)
    exact (Nat.min_eq_right ((Nat.sub_le _ _).trans hle)).symm

theorem backoffFactor_mono (h : attempt ≤ later) : backoffFactor attempt ≤ backoffFactor later := by
  rw [backoffFactor_eq, backoffFactor_eq]
  exact min_le_min_right _ (Nat.pow_le_pow_right (by decide) h)

/-- The nanoseconds of a base are multiplied within a word of sixty-four bits. -/
theorem nanos_mul_backoffFactor_lt (d : Duration) (attempt : Nat) :
    d.nanos * backoffFactor attempt < wideLimit := by
  have hfactor : backoffFactor attempt ≤ 2 ^ 32 - 1 := by
    rw [backoffFactor_eq]
    exact Nat.min_le_right _ _
  calc d.nanos * backoffFactor attempt
      ≤ nanosPerSecond * (2 ^ 32 - 1) := Nat.mul_le_mul (Nat.le_of_lt d.nanos_lt) hfactor
    _ < wideLimit := by decide

/-! ### The pause -/

/-- **The pause in nanoseconds.** -/
theorem toNanos_backoff_eq (s : RetrySettings) (attempt : Nat) :
    (s.backoff attempt).toNanos =
      min (s.baseBackoff.toNanos * min (2 ^ attempt) (2 ^ 32 - 1)) Duration.longest.toNanos := by
  rw [backoff, Duration.toNanos_saturatingMul, backoffFactor_eq]

/-- **No pause is shorter** than an earlier one, or than that of a shorter base. -/
theorem toNanos_backoff_mono (hbase : s.baseBackoff.toNanos ≤ t.baseBackoff.toNanos)
    (h : attempt ≤ later) : (s.backoff attempt).toNanos ≤ (t.backoff later).toNanos := by
  rw [backoff, backoff, Duration.toNanos_saturatingMul, Duration.toNanos_saturatingMul]
  exact min_le_min_right _ (Nat.mul_le_mul hbase (backoffFactor_mono h))

/-- While the factor is a power of two, only the longest duration cuts a pause. -/
theorem toNanos_backoff_of_lt (s : RetrySettings) (h : attempt < 32) :
    (s.backoff attempt).toNanos =
      min (s.baseBackoff.toNanos * 2 ^ attempt) Duration.longest.toNanos := by
  rw [backoff, Duration.toNanos_saturatingMul, backoffFactor, if_pos h]
  rfl

/-- A pause whose factor is a power of two, and that is not cut. -/
theorem toNanos_backoff (s : RetrySettings) (h : attempt < 32)
    (hfits : s.baseBackoff.toNanos * 2 ^ attempt ≤ Duration.longest.toNanos) :
    (s.backoff attempt).toNanos = s.baseBackoff.toNanos * 2 ^ attempt := by
  rw [toNanos_backoff_of_lt s h]
  exact Nat.min_eq_left hfits

/-- No pause is empty unless its base is. -/
theorem toNanos_backoff_pos (s : RetrySettings) (h : 0 < s.baseBackoff.toNanos) (attempt : Nat) :
    0 < (s.backoff attempt).toNanos := by
  have hfactor : 0 < min (2 ^ attempt) (2 ^ 32 - 1) :=
    Nat.lt_min.mpr ⟨Nat.two_pow_pos attempt, by decide⟩
  rw [toNanos_backoff_eq]
  exact Nat.lt_min.mpr ⟨Nat.mul_pos h hfactor, by decide⟩

/-- **A pause is twice the one before exactly if it is not cut**, as long as the factor is a power of
two. -/
theorem doubles_iff (s : RetrySettings) (h : attempt ≤ 30) :
    (s.backoff (attempt + 1)).toNanos = 2 * (s.backoff attempt).toNanos ↔
      s.baseBackoff.toNanos * 2 ^ (attempt + 1) ≤ Duration.longest.toNanos := by
  have hodd : Duration.longest.toNanos % 2 = 1 := by decide
  have htwice : s.baseBackoff.toNanos * 2 ^ (attempt + 1) =
      2 * (s.baseBackoff.toNanos * 2 ^ attempt) := by
    rw [Nat.pow_succ, ← Nat.mul_assoc, Nat.mul_comm]
  rw [toNanos_backoff_of_lt s (by omega), toNanos_backoff_of_lt s (by omega), htwice]
  constructor
  · intro heq
    by_contra hcut
    -- the later pause is the longest duration, and twice a number is not odd
    rw [Nat.min_eq_right (by omega)] at heq
    omega
  · intro hfits
    rw [Nat.min_eq_left hfits, Nat.min_eq_left (by omega)]

/-- **The pauses are exact.** The pause after a failed attempt is the base times the power of two, or
times the greatest number of thirty-two bits if that is smaller; it stops at the longest duration,
which is one nanosecond less than `2 ^ 64` seconds, and on the way there no word overflows. Later
attempts and longer bases have no shorter pauses, and up to the thirty-first doubling a pause is twice
the one before exactly if it is not cut. -/
theorem backoff_exact (s : RetrySettings) (attempt : Nat) :
    ((s.backoff attempt).toNanos =
        min (s.baseBackoff.toNanos * min (2 ^ attempt) (2 ^ 32 - 1)) Duration.longest.toNanos ∧
      Duration.longest.toNanos = 2 ^ 64 * 10 ^ 9 - 1 ∧
      (s.backoff attempt).nanos < 10 ^ 9 ∧
      s.baseBackoff.nanos * backoffFactor attempt < 2 ^ 64) ∧
    (∀ (t : RetrySettings) (later : Nat), s.baseBackoff.toNanos ≤ t.baseBackoff.toNanos →
      attempt ≤ later → (s.backoff attempt).toNanos ≤ (t.backoff later).toNanos) ∧
    (attempt ≤ 30 →
      ((s.backoff (attempt + 1)).toNanos = 2 * (s.backoff attempt).toNanos ↔
        s.baseBackoff.toNanos * 2 ^ (attempt + 1) ≤ Duration.longest.toNanos)) := by
  refine ⟨⟨s.toNanos_backoff_eq attempt, by decide, (s.backoff attempt).nanos_lt, ?_⟩, ?_, ?_⟩
  · exact nanos_mul_backoffFactor_lt s.baseBackoff attempt
  · intro t later hbase hle
    exact toNanos_backoff_mono hbase hle
  · intro hle
    exact s.doubles_iff hle

/-- Pauses whose base is one nanosecond less than `2 ^ 33 + 1` seconds. -/
def patient : RetrySettings :=
  { maxAttempts := 40
    baseBackoff := { seconds := 8589934592, nanos := 999999999 }
    ackTimeout := .zero }

/-- The thirtieth doubling is exact, and the one after that is cut. -/
theorem backoff_exact_patient : (29 ≤ 30 ∧ 30 ≤ 30) ∧
    (patient.backoff 30).toNanos = 2 * (patient.backoff 29).toNanos ∧
    (patient.backoff 31).toNanos ≠ 2 * (patient.backoff 30).toNanos := by
  refine ⟨by decide, ?_, ?_⟩
  · exact ((backoff_exact patient 29).2.2 (by decide)).mpr (by decide)
  · exact fun h => absurd (((backoff_exact patient 30).2.2 (by decide)).mp h) (by decide)

end RetrySettings

end LoadRig
