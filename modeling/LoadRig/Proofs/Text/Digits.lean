import LoadRig.Text.Digits
import Mathlib.Algebra.Order.Ring.Nat
/-!
# Reading what was written in digits

The digits of a number are read back as the number, with or without leading zeros. Every format of
this library that holds a number rests on these few facts.

## Main results

* `LoadRig.Text.digitsValue_digits`, `LoadRig.Text.readDigits?_digits` — the round trip.
* `LoadRig.Text.length_digits_le` — a number below `10 ^ k` has at most `k` digits.
* `LoadRig.Text.lt_pow_length_digits`, `LoadRig.Text.pow_length_digits_le` — how large a number of
  so many digits is.
* `LoadRig.Text.digitsValue_padLeft`, `LoadRig.Text.length_padLeft` — leading zeros.
-/

namespace LoadRig.Text

/-! ### Digits -/

theorem isDigit_of_mem_digits {n : Nat} {c : Char} (h : c ∈ digits n) : c.isDigit = true := by
  induction n using digits.induct with
  | case1 n hn =>
    rw [digits_of_lt hn] at h
    obtain rfl := List.mem_singleton.mp h
    simpa [Nat.isDigit_digitChar] using hn
  | case2 n hn ih =>
    rw [digits_of_ge (by omega)] at h
    rcases List.mem_append.mp h with h | h
    · exact ih h
    · obtain rfl := List.mem_singleton.mp h
      simpa [Nat.isDigit_digitChar] using Nat.mod_lt n (by omega)

theorem all_isDigit_digits (n : Nat) : (digits n).all Char.isDigit = true :=
  List.all_eq_true.mpr fun _ => isDigit_of_mem_digits

theorem digitValue_digitChar {n : Nat} (h : n < 10) : digitValue (Nat.digitChar n) = n :=
  Nat.toNat_digitChar_sub_48_of_lt_ten h

theorem digitsValue_append_singleton (cs : List Char) (c : Char) :
    digitsValue (cs ++ [c]) = 10 * digitsValue cs + digitValue c := by
  simp [digitsValue, List.foldl_append]

/-- **What was written in digits is read back.** -/
theorem digitsValue_digits (n : Nat) : digitsValue (digits n) = n := by
  induction n using digits.induct with
  | case1 n hn =>
    rw [digits_of_lt hn]
    simpa [digitsValue] using digitValue_digitChar hn
  | case2 n hn ih =>
    rw [digits_of_ge (by omega), digitsValue_append_singleton, ih,
      digitValue_digitChar (Nat.mod_lt n (by omega))]
    omega

/-- **The digits of a number are read as the number.** -/
theorem readDigits?_digits (n : Nat) : readDigits? (digits n) = some n := by
  have hdigits : ((digits n).isEmpty || !(digits n).all Char.isDigit) = false := by
    rw [all_isDigit_digits, List.isEmpty_eq_false_iff.mpr (digits_ne_nil n)]
    rfl
  rw [readDigits?, hdigits, digitsValue_digits]
  rfl

theorem length_digits_le {n k : Nat} (hk : 0 < k) (h : n < 10 ^ k) : (digits n).length ≤ k := by
  induction n using digits.induct generalizing k with
  | case1 n hn => rw [digits_of_lt hn]; exact hk
  | case2 n hn ih =>
    rw [digits_of_ge (by omega), List.length_append, List.length_singleton]
    match k, hk with
    | 1, _ => omega
    | k + 2, _ =>
      have hdiv : n / 10 < 10 ^ (k + 1) :=
        Nat.div_lt_of_lt_mul (by rwa [Nat.pow_succ, Nat.mul_comm] at h)
      exact Nat.succ_le_succ (ih (by omega) hdiv)

theorem lt_pow_length_digits (n : Nat) : n < 10 ^ (digits n).length := by
  induction n using digits.induct with
  | case1 n hn =>
    rw [digits_of_lt hn]
    exact hn
  | case2 n hn ih =>
    rw [digits_of_ge (by omega), List.length_append, List.length_singleton, Nat.pow_succ]
    omega

/-- A number is not written with more digits than it needs. -/
theorem pow_length_digits_le {n : Nat} (h : 0 < n) : 10 ^ (digits n).length ≤ 10 * n := by
  by_contra hlong
  obtain ⟨k, hk⟩ := Nat.exists_eq_add_one.mpr (List.length_pos_iff.mpr (digits_ne_nil n))
  rw [hk, Nat.pow_succ] at hlong
  rcases Nat.eq_zero_or_pos k with rfl | hpos
  · omega
  · have hshort := length_digits_le hpos (by omega : n < 10 ^ k)
    omega

/-- Only zero itself begins with the digit zero. -/
theorem head?_digits {n : Nat} (h : 0 < n) : (digits n).head? ≠ some '0' := by
  induction n using digits.induct with
  | case1 n hn =>
    rw [digits_of_lt hn]
    simp [Nat.pos_iff_ne_zero.mp h]
  | case2 n hn ih =>
    obtain ⟨c, cs, hcs⟩ := List.exists_cons_of_ne_nil (digits_ne_nil (n / 10))
    have hc := ih (by omega)
    rw [digits_of_ge (by omega), hcs]
    rw [hcs] at hc
    exact hc

/-! ### Leading zeros -/

theorem digitsValue_replicate_append (k : Nat) (cs : List Char) :
    digitsValue (List.replicate k '0' ++ cs) = digitsValue cs := by
  induction k with
  | zero => rfl
  | succ k ih => rw [List.replicate_succ, List.cons_append, ← ih]; rfl

theorem digitsValue_padLeft (width : Nat) (cs : List Char) :
    digitsValue (padLeft width '0' cs) = digitsValue cs :=
  digitsValue_replicate_append _ _

theorem length_padLeft {width : Nat} {fill : Char} {cs : List Char} (h : cs.length ≤ width) :
    (padLeft width fill cs).length = width := by
  simp [padLeft]; omega

theorem all_isDigit_padLeft (width n : Nat) :
    (padLeft width '0' (digits n)).all Char.isDigit = true := by
  simp only [padLeft, List.all_append, all_isDigit_digits, Bool.and_true]
  simp

end LoadRig.Text
