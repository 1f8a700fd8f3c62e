import LoadRig.Proofs.Text.Digits
import LoadRig.Toml.Scalar
import Mathlib.Algebra.Order.Field.Power
import Mathlib.Algebra.Order.Ring.Rat
import Mathlib.Tactic.FieldSimp
import Mathlib.Tactic.NormNum
import Mathlib.Tactic.Positivity
import Mathlib.Tactic.Ring
/-!
# Numbers that are too large for a double

The greatest finite double is `(2 ^ 53 - 1) * 2 ^ 971`. What lies half a step above it or higher has
no finite double nearest to it: at exactly half a step the tie goes to the even neighbour, which
would be `2 ^ 1024`. Whether a decimal number is that large is decided by a comparison of natural
numbers.

## Main definitions

* `LoadRig.Decimal.Overflows` — `m * 10 ^ e` is that large.

## Main results

* `LoadRig.Decimal.nearestBits_eq_infinite_iff` — when a ratio has no finite double nearest to it.
* `LoadRig.Toml.isTooLarge_iff` — when a decimal number has none.
-/

namespace LoadRig.Decimal

/-- Half a step above the greatest finite double. -/
def overflowBound : Nat := (2 ^ 54 - 1) * 2 ^ 970

/-- No finite double is nearest to `m * 10 ^ e`. -/
def Overflows (m : Nat) (e : Int) : Prop := overflowBound * 10 ^ (-e).toNat ≤ m * 10 ^ e.toNat

instance (m : Nat) (e : Int) : Decidable (Overflows m e) := inferInstanceAs (Decidable (_ ≤ _))

variable {num den a b k : Nat} {e : Int}

/-! ### Rounding -/

theorem roundDiv_le (h : a < k * b) : roundDiv a b ≤ k := by
  have hfloor : a / b < k := Nat.div_lt_of_lt_mul (by rwa [Nat.mul_comm])
  unfold roundDiv
  dsimp only
  split_ifs <;> omega

/-- Just below an even number a quotient is rounded to it from half a step on. -/
theorem roundDiv_eq_iff (hk : k % 2 = 0) (h : a < k * b) :
    roundDiv a b = k ↔ (2 * k - 1) * b ≤ 2 * a := by
  have hb : 0 < b := Nat.pos_of_ne_zero fun hb => by simp [hb] at h
  obtain ⟨d, hd⟩ : ∃ d, k = a / b + 1 + d :=
    Nat.exists_eq_add_of_le (Nat.div_lt_of_lt_mul (by rwa [Nat.mul_comm]))
  have hrest : a % b < b := Nat.mod_lt a hb
  have hsplit : 2 * a = 2 * (a / b * b) + 2 * (a % b) := by
    have hdiv := Nat.div_add_mod a b
    rw [Nat.mul_comm] at hdiv
    omega
  have hgoal : (2 * k - 1) * b = 2 * (a / b * b) + b + 2 * (d * b) := by
    rw [hd, show 2 * (a / b + 1 + d) - 1 = 2 * (a / b) + 1 + 2 * d by omega]
    ring
  rw [hgoal, hsplit]
  rcases Nat.eq_zero_or_pos d with rfl | hpos
  · -- the quotient is cut to the number before
    simp only [roundDiv, beq_iff_eq]
    split_ifs <;> omega
  · -- it is cut to one that is further off
    have hfar : b ≤ d * b := Nat.le_mul_of_pos_left b hpos
    have hround : roundDiv a b ≤ a / b + 1 := by
      unfold roundDiv
      dsimp only
      split_ifs <;> omega
    constructor <;> intro hle <;> omega

/-! ### Scaling -/

theorem scaleTwo_eq (num den : Nat) (e : Int) :
    scaleTwo num den e = (num * 2 ^ e.toNat, den * 2 ^ (-e).toNat) := by
  unfold scaleTwo
  split
  · next h =>
    have hnil : (-e).toNat = 0 := by omega
    rw [hnil, Nat.pow_zero, Nat.mul_one]
    rfl
  · next h =>
    have hnil : e.toNat = 0 := by omega
    rw [hnil, Nat.pow_zero, Nat.mul_one]
    rfl

theorem snd_scaleTwo_pos (hden : 0 < den) : 0 < (scaleTwo num den e).2 := by
  rw [scaleTwo_eq]
  exact Nat.mul_pos hden (Nat.two_pow_pos _)

/-- What a scaled ratio is worth. -/
theorem fst_scaleTwo (hden : 0 < den) :
    ((scaleTwo num den e).1 : ℚ) = num / den * 2 ^ e * (scaleTwo num den e).2 := by
  have hne : (den : ℚ) ≠ 0 := Nat.cast_ne_zero.mpr (Nat.ne_of_gt hden)
  have hpow : (2 : ℚ) ^ e * 2 ^ (-e).toNat = 2 ^ e.toNat := by
    rw [← zpow_natCast, ← zpow_natCast, ← zpow_add₀ two_ne_zero]
    congr 1
    omega
  rw [scaleTwo_eq]
  push_cast
  rw [← hpow]
  field_simp

/-- Comparing with a scaled ratio. -/
theorem le_scaleTwo_iff (hden : 0 < den) (num : Nat) (e : Int) (j k : Nat) :
    k * (scaleTwo num den e).2 ≤ j * (scaleTwo num den e).1 ↔
      (k : ℚ) ≤ j * (num / den * 2 ^ e) := by
  have hpos : (0 : ℚ) < (scaleTwo num den e).2 := Nat.cast_pos.mpr (snd_scaleTwo_pos hden)
  rw [← Nat.cast_le (α := ℚ), Nat.cast_mul, Nat.cast_mul, fst_scaleTwo hden, ← mul_assoc,
    mul_le_mul_iff_left₀ hpos]

/-! ### Binades -/

/-- The exponent of the power of two below a ratio. -/
def binade (num den : Nat) : Int :=
  let rough : Int := (num.log2 : Int) - (den.log2 : Int)
  if (scaleTwo num den (-rough)).2 ≤ (scaleTwo num den (-rough)).1 then rough else rough - 1

theorem cast_log2 {n : Nat} (hn : 0 < n) :
    (2 : ℚ) ^ (n.log2 : Int) ≤ n ∧ (n : ℚ) < 2 ^ ((n.log2 : Int) + 1) := by
  obtain ⟨hlow, hhigh⟩ := (Nat.log2_eq_iff (Nat.ne_of_gt hn)).mp rfl
  constructor
  · rw [zpow_natCast]
    exact_mod_cast hlow
  · exact_mod_cast hhigh

theorem binade_spec (hnum : 0 < num) (hden : 0 < den) :
    (2 : ℚ) ^ binade num den ≤ num / den ∧ (num / den : ℚ) < 2 ^ (binade num den + 1) := by
  obtain ⟨hnumLow, hnumHigh⟩ := cast_log2 hnum
  obtain ⟨hdenLow, hdenHigh⟩ := cast_log2 hden
  have hpos : (0 : ℚ) < den := Nat.cast_pos.mpr hden
  have htwo : (2 : ℚ) ≠ 0 := two_ne_zero
  have hlow : (2 : ℚ) ^ ((num.log2 : Int) - den.log2 - 1) ≤ num / den := by
    rw [le_div_iff₀ hpos]
    calc (2 : ℚ) ^ ((num.log2 : Int) - den.log2 - 1) * den
        ≤ 2 ^ ((num.log2 : Int) - den.log2 - 1) * 2 ^ ((den.log2 : Int) + 1) :=
          mul_le_mul_of_nonneg_left hdenHigh.le (by positivity)
      _ = 2 ^ (num.log2 : Int) := by
          rw [← zpow_add₀ htwo]
          congr 1
          omega
      _ ≤ num := hnumLow
  have hhigh : (num / den : ℚ) < 2 ^ ((num.log2 : Int) - den.log2 + 1) := by
    rw [div_lt_iff₀ hpos]
    calc (num : ℚ) < 2 ^ ((num.log2 : Int) + 1) := hnumHigh
      _ = 2 ^ ((num.log2 : Int) - den.log2 + 1) * 2 ^ (den.log2 : Int) := by
          rw [← zpow_add₀ htwo]
          congr 1
          omega
      _ ≤ 2 ^ ((num.log2 : Int) - den.log2 + 1) * den :=
          mul_le_mul_of_nonneg_left hdenLow (by positivity)
  have hcut : (scaleTwo num den (-((num.log2 : Int) - den.log2))).2 ≤
      (scaleTwo num den (-((num.log2 : Int) - den.log2))).1 ↔
      (2 : ℚ) ^ ((num.log2 : Int) - den.log2) ≤ num / den := by
    have hone := le_scaleTwo_iff hden num (-((num.log2 : Int) - den.log2)) 1 1
    rw [Nat.one_mul, Nat.one_mul, Nat.cast_one, one_mul, zpow_neg, ← div_eq_mul_inv,
      one_le_div (by positivity)] at hone
    exact hone
  unfold binade
  dsimp only
  split
  · next h => exact ⟨hcut.mp h, hhigh⟩
  · next h =>
    refine ⟨hlow, ?_⟩
    rw [sub_add_cancel]
    exact not_le.mp (mt hcut.mpr h)

/-! ### Bits -/

/-- The bits of a significand of at most fifty-four bits with its exponent. -/
def packed (m : Nat) (q : Int) : UInt64 :=
  let (m, q) := if m == 2 * leadingBit then (leadingBit, q + 1) else (m, q)
  if 972 ≤ q then 0x7FF0000000000000
  else if m < leadingBit then UInt64.ofNat m
  else UInt64.ofNat ((q + 1075).toNat * leadingBit + (m - leadingBit))

/-- The exponent of the last place that is kept. -/
def lastPlace (num den : Nat) : Int := max (binade num den - 52) (-1074)

theorem nearestBits_eq (hnum : 0 < num) (den : Nat) :
    nearestBits num den =
      packed (roundDiv (scaleTwo num den (-lastPlace num den)).1
        (scaleTwo num den (-lastPlace num den)).2) (lastPlace num den) := by
  have hne : ¬ (num == 0) = true := by simpa using Nat.ne_of_gt hnum
  unfold nearestBits packed lastPlace binade
  rw [if_neg hne]

theorem ofNat_ne_infinite {n : Nat} (h : n < 0x7FF0000000000000) :
    UInt64.ofNat n ≠ 0x7FF0000000000000 := by
  intro heq
  have hvalue := congrArg UInt64.toNat heq
  rw [UInt64.toNat_ofNat_of_lt' (Nat.lt_trans h (by decide))] at hvalue
  exact absurd hvalue (Nat.ne_of_lt h)

/-- The bits of a finite double. -/
theorem finiteBits_ne_infinite {m : Nat} {q : Int} (hm : m < 2 * leadingBit) (hq : q < 972) :
    (if m < leadingBit then UInt64.ofNat m
      else UInt64.ofNat ((q + 1075).toNat * leadingBit + (m - leadingBit))) ≠
      0x7FF0000000000000 := by
  have hbit : leadingBit = 4503599627370496 := rfl
  have hexponent : (q + 1075).toNat * leadingBit ≤ 2046 * leadingBit :=
    Nat.mul_le_mul_right _ (by omega)
  split
  · exact ofNat_ne_infinite (by omega)
  · exact ofNat_ne_infinite (by omega)

theorem packed_eq_infinite_iff {m : Nat} {q : Int} (hm : m ≤ 2 * leadingBit) :
    packed m q = 0x7FF0000000000000 ↔ 972 ≤ q ∨ q = 971 ∧ m = 2 * leadingBit := by
  have hbit : leadingBit = 4503599627370496 := rfl
  unfold packed
  by_cases hlast : m = 2 * leadingBit
  · rw [if_pos (beq_iff_eq.mpr hlast)]
    dsimp only
    by_cases hq : 972 ≤ q + 1
    · rw [if_pos hq]
      exact iff_of_true rfl (by omega)
    · rw [if_neg hq]
      exact iff_of_false (finiteBits_ne_infinite (by omega) (by omega)) (by omega)
  · rw [if_neg (mt beq_iff_eq.mp hlast)]
    dsimp only
    by_cases hq : 972 ≤ q
    · rw [if_pos hq]
      exact iff_of_true rfl (.inl hq)
    · rw [if_neg hq]
      exact iff_of_false (finiteBits_ne_infinite (by omega) (by omega)) (by omega)

/-! ### The bound -/

theorem cast_overflowBound : (overflowBound : ℚ) = (2 ^ 54 - 1) * 2 ^ (970 : Int) := by
  have hplaces : (((2 ^ 54 - 1 : Nat)) : ℚ) = 2 ^ 54 - 1 := by norm_num
  rw [overflowBound, Nat.cast_mul, hplaces, Nat.cast_pow, Nat.cast_ofNat, zpow_ofNat]

theorem overflowBound_mul_le_iff (hden : 0 < den) :
    overflowBound * den ≤ num ↔ ((2 ^ 54 - 1) * 2 ^ (970 : Int) : ℚ) ≤ num / den := by
  rw [le_div_iff₀ (Nat.cast_pos.mpr hden), ← cast_overflowBound, ← Nat.cast_mul, Nat.cast_le]

/-- The bound lies in the last binade of the finite doubles. -/
theorem overflowBound_binade :
    (2 : ℚ) ^ (1023 : Int) ≤ (2 ^ 54 - 1) * 2 ^ (970 : Int) ∧
      ((2 ^ 54 - 1) * 2 ^ (970 : Int) : ℚ) ≤ 2 ^ (1024 : Int) := by
  have hpos : (0 : ℚ) ≤ 2 ^ (970 : Int) := by positivity
  constructor
  · rw [show (1023 : Int) = 53 + 970 from rfl, zpow_add₀ two_ne_zero]
    exact mul_le_mul_of_nonneg_right (by norm_num) hpos
  · rw [show (1024 : Int) = 54 + 970 from rfl, zpow_add₀ two_ne_zero]
    exact mul_le_mul_of_nonneg_right (by norm_num) hpos

/-- **When a ratio has no finite double nearest to it.** -/
theorem nearestBits_eq_infinite_iff (hnum : 0 < num) (hden : 0 < den) :
    nearestBits num den = 0x7FF0000000000000 ↔ overflowBound * den ≤ num := by
  obtain ⟨hlow, hhigh⟩ := binade_spec hnum hden
  have hone : (1 : ℚ) ≤ 2 := one_le_two
  generalize hq : lastPlace num den = q
  have hkept : binade num den + 1 ≤ q + 53 := by
    rw [← hq, lastPlace]
    omega
  have hbelow : (scaleTwo num den (-q)).1 < 2 * leadingBit * (scaleTwo num den (-q)).2 := by
    have hscaled := le_scaleTwo_iff hden num (-q) 1 (2 * leadingBit)
    rw [Nat.one_mul] at hscaled
    rw [← not_le, hscaled, not_le, Nat.cast_one, one_mul]
    calc (num / den * 2 ^ (-q) : ℚ)
        < 2 ^ (binade num den + 1) * 2 ^ (-q) := mul_lt_mul_of_pos_right hhigh (by positivity)
      _ ≤ 2 ^ (q + 53) * 2 ^ (-q) :=
          mul_le_mul_of_nonneg_right (zpow_le_zpow_right₀ hone hkept) (by positivity)
      _ = 2 ^ (53 : Int) := by
          rw [← zpow_add₀ two_ne_zero, add_neg_cancel_comm]
      _ = (2 * leadingBit : Nat) := by norm_num [leadingBit]
  rw [nearestBits_eq hnum, hq, packed_eq_infinite_iff (roundDiv_le hbelow),
    overflowBound_mul_le_iff hden]
  rcases lt_trichotomy q 971 with hsmall | rfl | hlarge
  · -- all such ratios lie below `2 ^ 1023`
    refine iff_of_false (by omega) (not_le.mpr (lt_of_lt_of_le ?_ overflowBound_binade.1))
    calc (num / den : ℚ) < 2 ^ (binade num den + 1) := hhigh
      _ ≤ 2 ^ (1023 : Int) := zpow_le_zpow_right₀ hone (by omega)
  · -- rounding decides
    have hround := roundDiv_eq_iff (by decide : 2 * leadingBit % 2 = 0) hbelow
    have hplaces : ((2 * (2 * leadingBit) - 1 : Nat) : ℚ) = 2 ^ 54 - 1 := by norm_num [leadingBit]
    have hhalf : (2 : ℚ) ^ (971 : Int) = 2 * 2 ^ (970 : Int) := by
      rw [show (971 : Int) = 1 + 970 from rfl, zpow_add₀ two_ne_zero, zpow_one]
    have hscale : ((2 : Nat) : ℚ) * (num / den * 2 ^ (-971 : Int)) =
        num / den * (2 ^ (970 : Int))⁻¹ := by
      rw [zpow_neg, hhalf, mul_inv, Nat.cast_ofNat]
      ring
    rw [le_scaleTwo_iff hden, hplaces, hscale, le_mul_inv_iff₀ (by positivity)] at hround
    rw [← hround]
    exact ⟨fun h => by omega, fun h => .inr ⟨rfl, h⟩⟩
  · -- and these from `2 ^ 1024` on
    have hbinade : 1024 ≤ binade num den := by
      rw [lastPlace] at hq
      omega
    have hrise : (2 : ℚ) ^ (1024 : Int) ≤ 2 ^ binade num den :=
      zpow_le_zpow_right₀ hone hbinade
    exact iff_of_true (.inl (by omega)) (overflowBound_binade.2.trans (hrise.trans hlow))

/-- Powers of ten on either side of the bound. -/
theorem overflowBound_powers : 10 ^ 300 < overflowBound ∧ overflowBound < 10 ^ 400 := by
  decide +kernel

end LoadRig.Decimal

namespace LoadRig.Toml

open Text Decimal

/-- **When a decimal number is too large**: the count of its digits decides first, and rounding
where that does not. -/
theorem isTooLarge_iff {m : Nat} {e : Int} : isTooLarge m e = true ↔ Overflows m e := by
  have htens : ∀ k : Nat, 0 < 10 ^ k := fun k => Nat.pow_pos (by decide)
  rcases Nat.eq_zero_or_pos m with rfl | hm
  · refine iff_of_false Bool.false_ne_true fun h => ?_
    rw [Overflows, Nat.zero_mul, Nat.le_zero] at h
    have hpos := Nat.lt_trans (htens 300) overflowBound_powers.1
    exact absurd h (Nat.ne_of_gt (Nat.mul_pos hpos (htens _)))
  have hne : (m == 0) = false := beq_eq_false_iff_ne.mpr (Nat.ne_of_gt hm)
  rw [isTooLarge, hne, Bool.false_or]
  split_ifs with hfew hmany
  · -- too few digits
    have hfew := of_decide_eq_true hfew
    refine iff_of_false not_false (not_le.mpr ?_)
    calc m * 10 ^ e.toNat < 10 ^ (digits m).length * 10 ^ e.toNat :=
          Nat.mul_lt_mul_of_pos_right (lt_pow_length_digits m) (htens _)
      _ = 10 ^ ((digits m).length + e.toNat) := (Nat.pow_add ..).symm
      _ ≤ 10 ^ (300 + (-e).toNat) := Nat.pow_le_pow_right (by decide) (by omega)
      _ = 10 ^ 300 * 10 ^ (-e).toNat := pow_add 10 300 _
      _ ≤ overflowBound * 10 ^ (-e).toNat := Nat.mul_le_mul_right _ overflowBound_powers.1.le
  · -- enough of them
    refine iff_of_true rfl (Nat.le_of_mul_le_mul_left ?_ (by decide : 0 < 10))
    calc 10 * (overflowBound * 10 ^ (-e).toNat) ≤ 10 * (10 ^ 400 * 10 ^ (-e).toNat) :=
          Nat.mul_le_mul_left _ (Nat.mul_le_mul_right _ overflowBound_powers.2.le)
      _ = 10 ^ (401 + (-e).toNat) := by rw [← Nat.pow_add, ← Nat.pow_succ']; congr 1; omega
      _ ≤ 10 ^ ((digits m).length + e.toNat) := Nat.pow_le_pow_right (by decide) (by omega)
      _ = 10 ^ (digits m).length * 10 ^ e.toNat := Nat.pow_add ..
      _ ≤ 10 * m * 10 ^ e.toNat := Nat.mul_le_mul_right _ (pow_length_digits_le hm)
      _ = 10 * (m * 10 ^ e.toNat) := Nat.mul_assoc ..
  · rw [beq_iff_eq]
    exact nearestBits_eq_infinite_iff (Nat.mul_pos hm (htens _)) (htens _)

end LoadRig.Toml
