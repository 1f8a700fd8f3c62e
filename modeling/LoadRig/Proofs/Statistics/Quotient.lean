import LoadRig.Statistics
import LoadRig.Word
import Mathlib
/-!
# How large a quotient of doubles is

A rate is a count divided by a time, and both are doubles. What a comparison of doubles comes to is
decided by exponents, where these differ, and the exponent of a quotient is within two of the
difference of the exponents, however the quotient is rounded. So it can be seen without following the
rounding that a quotient is positive, and that it is no less than a number with a smaller exponent.

All of this is about positive numbers with a full significand of fifty-three bits; a count is one, if it
is not zero.

## Main definitions

* `LoadRig.IsNormal` — a positive double with a full significand and a given exponent.

## Main results

* `LoadRig.isNormal_countFloat`, `LoadRig.IsNormal.div`
* `LoadRig.IsNormal.pos`, `LoadRig.IsNormal.not_lt`
-/

namespace LoadRig

open Float.Model (Format UnpackedFloat totalExponent)
open Float.Model.UnpackedFloat

/-- A positive number with a full significand of fifty-three bits, and its exponent. -/
def FullWidth (u : UnpackedFloat) (e : Int) : Prop :=
  ∃ m, ∃ hm : 0 < m, m.log2 = 52 ∧ u = .finite .positive m e hm

/-- A positive double with a full significand, and its exponent. -/
def IsNormal (x : Float) (e : Int) : Prop := FullWidth x.toModel.unpack e

/-! ### Significands -/

theorem ne_zero_of_le_log2 {m : Nat} (h : 52 ≤ m.log2) : m ≠ 0 := by
  rintro rfl
  exact absurd h (by decide)

/-- What is left of a significand when it is cut to fifty-three bits. -/
theorem log2_div_two_pow {m : Nat} (h : 52 ≤ m.log2) : (m / 2 ^ (m.log2 - 52)).log2 = 52 := by
  obtain ⟨hlow, hhigh⟩ := (Nat.log2_eq_iff (ne_zero_of_le_log2 h)).mp rfl
  have hpos : 0 < 2 ^ (m.log2 - 52) := Nat.two_pow_pos _
  have hleast : 2 ^ 52 ≤ m / 2 ^ (m.log2 - 52) := by
    rw [Nat.le_div_iff_mul_le hpos, ← Nat.pow_add, Nat.add_sub_cancel' h]
    exact hlow
  refine (Nat.log2_eq_iff (by omega)).mpr ⟨hleast, ?_⟩
  rw [Nat.div_lt_iff_lt_mul hpos, ← Nat.pow_add]
  exact Nat.lt_of_lt_of_eq hhigh (congrArg (2 ^ ·) (by omega))

/-- What becomes of a significand that is filled up. -/
theorem log2_shiftLeft {n : Nat} (hn : n ≠ 0) (k : Nat) : (n <<< k).log2 = n.log2 + k := by
  obtain ⟨hlow, hhigh⟩ := (Nat.log2_eq_iff hn).mp rfl
  have hpos : 0 < 2 ^ k := Nat.two_pow_pos _
  rw [Nat.shiftLeft_eq, Nat.log2_eq_iff (Nat.mul_ne_zero hn (Nat.ne_of_gt hpos)), Nat.add_right_comm,
    Nat.pow_add, Nat.pow_add]
  exact ⟨Nat.mul_le_mul_right _ hlow, Nat.mul_lt_mul_of_pos_right hhigh hpos⟩

/-- The quotient of full significands, the first filled up with as many places again. -/
theorem log2_quotient {m n : Nat} (hm : m.log2 = 52) (hn : n.log2 = 52) :
    52 ≤ ((m <<< 53) / n).log2 ∧ ((m <<< 53) / n).log2 < 54 := by
  obtain ⟨hmlow, hmhigh⟩ := (Nat.log2_eq_iff (ne_zero_of_le_log2 (Nat.le_of_eq hm.symm))).mp hm
  obtain ⟨hnlow, hnhigh⟩ := (Nat.log2_eq_iff (ne_zero_of_le_log2 (Nat.le_of_eq hn.symm))).mp hn
  have hpos : 0 < n := by omega
  rw [Nat.shiftLeft_eq]
  have hlow : 2 ^ 52 ≤ m * 2 ^ 53 / n := by
    rw [Nat.le_div_iff_mul_le hpos]
    omega
  have hhigh : m * 2 ^ 53 / n < 2 ^ 54 := by
    rw [Nat.div_lt_iff_lt_mul hpos]
    omega
  exact ⟨(Nat.le_log2 (by omega)).mpr hlow, (Nat.log2_lt (by omega)).mpr hhigh⟩

/-! ### Rounding -/

theorem mantissa_ofMantissaAndAccuracy (m : Nat) (a : Accuracy) :
    (ExtendedMantissa.ofMantissaAndAccuracy m a).mantissa = m := by
  rcases a with _ | _ | _ | _ <;> rfl

theorem mantissa_shiftRight (x : ExtendedMantissa) (n : Nat) :
    (x >>> n).mantissa = x.mantissa / 2 ^ n := by
  induction n with
  | zero => exact (Nat.div_one _).symm
  | succ n ih =>
    show (x >>> n).mantissa / 2 = _
    rw [ih, Nat.div_div_eq_div_mul, Nat.pow_succ]

theorem roundedMantissa_mem (x : ExtendedMantissa) :
    x.roundedMantissa = x.mantissa ∨ x.roundedMantissa = x.mantissa + 1 := by
  obtain ⟨m, _ | _, _ | _⟩ := x
  · exact .inl rfl
  · exact .inl rfl
  · show m + m % 2 = m ∨ m + m % 2 = m + 1
    omega
  · exact .inr rfl

/-- A significand that is wide enough is cut to fifty-three bits, and the exponent grows by as many
places as go. -/
theorem shift_fullWidth {m : Nat} {e : Int} (a : Accuracy) (hm : 52 ≤ m.log2) (he : -1074 ≤ e) :
    ∃ x, shiftToTargetExponent Format.binary64 m e a = (x, e + (m.log2 - 52 : Nat)) ∧
      x.mantissa.log2 = 52 := by
  have htarget : Format.binary64.targetExponent (totalExponent m e) = e + (m.log2 - 52 : Nat) := by
    show max ((m.log2 : Int) + 1 + e - (1 + 52 : Nat)) (3 - 1024 - (1 + 52 : Nat)) = _
    omega
  have hshift : (e + (m.log2 - 52 : Nat) - e).toNat = m.log2 - 52 := by omega
  refine ⟨ExtendedMantissa.ofMantissaAndAccuracy m a >>> (m.log2 - 52), ?_, ?_⟩
  · rw [shiftToTargetExponent, htarget, shiftToExponent, hshift]
  · rw [mantissa_shiftRight, mantissa_ofMantissaAndAccuracy, log2_div_two_pow hm]

/-- **Rounding** leaves a full significand; to round up may add one to the exponent. -/
theorem fullWidth_round {m : Nat} {e : Int} (a : Accuracy) (hm : 52 ≤ m.log2) (he : -1074 ≤ e) :
    ∃ e', FullWidth (roundWithAccuracy Format.binary64 .positive m e a) e' ∧
      e + (m.log2 - 52 : Nat) ≤ e' ∧ e' ≤ e + (m.log2 - 52 : Nat) + 1 := by
  obtain ⟨x, hx, hlog⟩ := shift_fullWidth a hm he
  obtain ⟨hlow, hhigh⟩ := (Nat.log2_eq_iff (ne_zero_of_le_log2 (Nat.le_of_eq hlog.symm))).mp hlog
  have hrange : x.mantissa ≤ x.roundedMantissa ∧ x.roundedMantissa ≤ 2 ^ 53 := by
    rcases roundedMantissa_mem x with h | h <;> omega
  have hleast : 52 ≤ x.roundedMantissa.log2 := (Nat.le_log2 (by omega)).mpr (by omega)
  have hgreatest : x.roundedMantissa.log2 < 54 := (Nat.log2_lt (by omega)).mpr (by omega)
  obtain ⟨y, hy, hlog'⟩ := shift_fullWidth (e := e + (m.log2 - 52 : Nat)) .exact hleast (by omega)
  have hpos : y.mantissa ≠ 0 := ne_zero_of_le_log2 (Nat.le_of_eq hlog'.symm)
  refine ⟨e + (m.log2 - 52 : Nat) + (x.roundedMantissa.log2 - 52 : Nat),
    ⟨y.mantissa, Nat.pos_of_ne_zero hpos, hlog', ?_⟩, by omega, by omega⟩
  simp only [roundWithAccuracy, hx, hy]
  rw [dif_neg hpos]

/-! ### Sixty-four bits -/

/-- The leading bit that is left out and put back. -/
theorem toNat_one_append {m : Nat} (hlow : 2 ^ 52 ≤ m) (hhigh : m < 2 ^ 53) :
    (1#1 ++ BitVec.ofNat 52 m).toNat = m := by
  rw [BitVec.toNat_append, BitVec.toNat_ofNat, BitVec.toNat_ofNat]
  show 1 <<< 52 ||| m % 2 ^ 52 = m
  rw [← Nat.shiftLeft_add_eq_or_of_lt (Nat.mod_lt _ (by decide))]
  omega

/-- **A number with a full significand** is read from the bits that it is written in, if its exponent
is one of a double. -/
theorem FullWidth.unpack_pack {u : UnpackedFloat} {e : Int} (h : FullWidth u e) (he : -1074 ≤ e)
    (he' : e ≤ 971) : (Float.Model.pack u).unpack = u := by
  obtain ⟨m, hm, hlog, rfl⟩ := h
  obtain ⟨hlow, hhigh⟩ := (Nat.log2_eq_iff (Nat.ne_of_gt hm)).mp hlog
  obtain ⟨b, hb⟩ : ∃ b : Nat, e + 1023 + 52 = b := ⟨(e + 1075).toNat, by omega⟩
  have hpack : pack Format.binary64 (.finite .positive m e hm)
      = packComponents Format.binary64 .positive (BitVec.ofNat 11 b) (BitVec.ofNat 52 m) := by
    have hbias : (e + Format.binary64.exponentBias
        + Format.binary64.mantissaBitsWithoutImplicit).toNat = b := by
      show (e + 1023 + 52).toNat = b
      omega
    simp only [pack, hbias, hlog]
    rw [if_neg (show ¬ 2 ^ 11 ≤ b + 1 by omega), if_pos (by rfl)]
  show unpack Format.binary64 (pack Format.binary64 _) = _
  rw [hpack]
  simp only [unpack, unpackMantissa_packComponents, unpackExponent_packComponents]
  -- the exponent is neither that of zero nor that of infinity
  have hfield : (BitVec.ofNat 11 b).toNat = b := Nat.mod_eq_of_lt (by omega)
  have hones : BitVec.ofNat 11 b ≠ -1#11 := by
    intro h
    have hall : b = 2047 := hfield.symm.trans (congrArg BitVec.toNat h)
    omega
  have hzero : BitVec.ofNat 11 b ≠ 0#11 := by
    intro h
    have hnone : b = 0 := hfield.symm.trans (congrArg BitVec.toNat h)
    omega
  rw [if_neg hones, if_neg hzero]
  congr 1
  · rw [unpackSign_packComponents, Sign.ofBitVec_toBitVec]
  · exact toNat_one_append hlow hhigh
  · rw [hfield]
    show (b : Int) - (1023 + 52) = e
    omega

/-! ### Doubles -/

/-- A count has the exponent of its leading bit, or one more. -/
theorem isNormal_countFloat {n : Nat} (hn : 0 < n) (hlimit : n < wideLimit) :
    ∃ e, IsNormal (countFloat n) e ∧ (n.log2 : Int) - 52 ≤ e ∧ e ≤ (n.log2 : Int) - 51 := by
  have hne : n ≠ 0 := Nat.ne_of_gt hn
  have hlimit : n < 2 ^ 64 := Nat.lt_of_lt_of_eq hlimit wideLimit_eq_pow
  have hlog : n.log2 < 64 := (Nat.log2_lt hne).mpr hlimit
  -- a short count is filled up to fifty-three bits before it is rounded
  have hfilled : (n <<< (52 - n.log2)).log2 = n.log2 + (52 - n.log2) := log2_shiftLeft hne _
  have hround : UnpackedFloat.ofNat Format.binary64 n = roundWithAccuracy Format.binary64 .positive
      (n <<< (52 - n.log2)) (0 - (52 - n.log2 : Nat)) .exact := by
    have htarget : Format.binary64.targetExponent (totalExponent n 0) = (n.log2 : Int) - 52 := by
      show max ((n.log2 : Int) + 1 + 0 - (1 + 52 : Nat)) (3 - 1024 - (1 + 52 : Nat)) = _
      omega
    have hshift : (0 - ((n.log2 : Int) - 52)).toNat = 52 - n.log2 := by omega
    have hsign : compare (n : Int) 0 = .gt := Int.compare_eq_gt.mpr (by omega)
    simp only [UnpackedFloat.ofNat, UnpackedFloat.ofInt, UnpackedFloat.normalize, hsign,
      Int.toNat_natCast, UnpackedFloat.round, htarget, decreaseExponent, hshift]
  obtain ⟨e, he, hleast, hgreatest⟩ := fullWidth_round (m := n <<< (52 - n.log2))
    (e := 0 - (52 - n.log2 : Nat)) .exact (by omega) (by omega)
  refine ⟨e, ?_, by omega, by omega⟩
  have hbits : (UInt64.ofNat n).toNat = n := Nat.mod_eq_of_lt hlimit
  show FullWidth (Float.Model.pack
    (UnpackedFloat.ofNat Format.binary64 (UInt64.ofNat n).toNat)).unpack e
  rw [hbits, hround, he.unpack_pack (by omega) (by omega)]
  exact he

/-- Doubles are compared as they are read from their bits. -/
theorem lt_iff {x y : Float} : x < y ↔ x.toModel.unpack.lt y.toModel.unpack = true := by
  show decide (x.toModel < y.toModel) = true ↔ _
  rw [decide_eq_true_iff]
  exact Iff.rfl

namespace IsNormal

variable {x y : Float} {a b : Int}

/-- **A quotient** has the difference of the exponents for its exponent, less the places of a
significand, and up to two more. -/
theorem div (hx : IsNormal x a) (hy : IsNormal y b) (hlow : -1021 ≤ a - b) (hhigh : a - b ≤ 1021) :
    ∃ e, IsNormal (x / y) e ∧ a - b - 53 ≤ e ∧ e ≤ a - b - 51 := by
  obtain ⟨m, hm, hmlog, hxm⟩ := hx
  obtain ⟨n, hn, hnlog, hyn⟩ := hy
  obtain ⟨hwide, hnarrow⟩ := log2_quotient hmlog hnlog
  have hcore : divCore Format.binary64 m a n b
      = ((m <<< 53) / n, a - b - 53, accuracyOfFraction ((m <<< 53) % n) n) := by
    have htarget : min (a - b) (Format.binary64.targetExponent
        (totalExponent m a - totalExponent n b)) = a - b - 53 := by
      rw [totalExponent, totalExponent, hmlog, hnlog]
      show min (a - b) (max
        (((52 : Nat) : Int) + 1 + a - (((52 : Nat) : Int) + 1 + b) - (1 + 52 : Nat))
        (3 - 1024 - (1 + 52 : Nat))) = _
      omega
    have hshift : (a - b - (a - b - 53)).toNat = 53 := by omega
    simp only [divCore, htarget, hshift]
  obtain ⟨e, he, hleast, hgreatest⟩ := fullWidth_round (accuracyOfFraction ((m <<< 53) % n) n)
    hwide (show -1074 ≤ a - b - 53 by omega)
  refine ⟨e, ?_, by omega, by omega⟩
  have hdiv : UnpackedFloat.div Format.binary64 x.toModel.unpack y.toModel.unpack
      = roundWithAccuracy Format.binary64 .positive ((m <<< 53) / n) (a - b - 53)
        (accuracyOfFraction ((m <<< 53) % n) n) := by
    rw [hxm, hyn]
    simp only [UnpackedFloat.div, hcore]
    rfl
  show FullWidth (Float.Model.pack _).unpack e
  rw [hdiv, he.unpack_pack (by omega) (by omega)]
  exact he

/-- A number with a greater exponent is not less. -/
theorem not_lt (hx : IsNormal x a) (hy : IsNormal y b) (h : b < a) : ¬ x < y := by
  obtain ⟨m, hm, -, hxm⟩ := hx
  obtain ⟨n, hn, -, hyn⟩ := hy
  have hexponents : compare a b = .gt := Int.compare_eq_gt.mpr h
  rw [lt_iff, hxm, hyn]
  simp only [UnpackedFloat.lt, UnpackedFloat.compare, hexponents]
  exact Bool.false_ne_true

/-- A positive number is greater than zero. -/
theorem pos (hx : IsNormal x a) : 0.0 < x := by
  obtain ⟨m, hm, -, hxm⟩ := hx
  rw [lt_iff, hxm]
  rfl

end IsNormal

end LoadRig
