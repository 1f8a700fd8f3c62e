import LoadRig.Text.Digits
import Mathlib.Tactic.IntervalCases
/-!
# Hexadecimal digits

A number is read back from its hexadecimal digits, which stand for themselves in either case.

## Main definitions

* `LoadRig.Text.hexNumber?` — the number of some hexadecimal digits.

## Main results

* `LoadRig.Text.hexValue?_hexChar` — a digit is read back.
* `LoadRig.Text.hexNumber?_hexDigits` — a number is read back.
* `LoadRig.Text.length_hexDigits_le` — how long its text is.
-/

namespace LoadRig.Text

/-- The number that hexadecimal digits denote. -/
def hexNumber? (cs : List Char) : Option Nat :=
  cs.foldlM (fun n c => (hexValue? c).map (16 * n + ·)) 0

theorem hexValue?_hexChar {d : Nat} (h : d < 16) : hexValue? (hexChar d) = some d := by
  interval_cases d <;> rfl

theorem hexDigits_of_lt {n : Nat} (h : n < 16) : hexDigits n = [hexChar n] := by
  rw [hexDigits, if_pos h]

theorem hexDigits_of_ge {n : Nat} (h : 16 ≤ n) :
    hexDigits n = hexDigits (n / 16) ++ [hexChar (n % 16)] := by
  rw [hexDigits, if_neg (Nat.not_lt.mpr h)]

theorem hexDigits_ne_nil (n : Nat) : hexDigits n ≠ [] := by
  rw [hexDigits]
  split <;> simp

/-- Every character of the text is a digit. -/
theorem exists_of_mem_hexDigits {n : Nat} {c : Char} (h : c ∈ hexDigits n) :
    ∃ d < 16, c = hexChar d := by
  induction n using hexDigits.induct with
  | case1 n hn =>
    rw [hexDigits_of_lt hn] at h
    exact ⟨n, hn, List.mem_singleton.mp h⟩
  | case2 n hn ih =>
    rw [hexDigits_of_ge (Nat.not_lt.mp hn)] at h
    rcases List.mem_append.mp h with h | h
    · exact ih h
    · exact ⟨n % 16, Nat.mod_lt n (by decide), List.mem_singleton.mp h⟩

/-- **A number is read back** from its digits. -/
theorem hexNumber?_hexDigits (n : Nat) : hexNumber? (hexDigits n) = some n := by
  induction n using hexDigits.induct with
  | case1 n hn =>
    rw [hexDigits_of_lt hn]
    simp [hexNumber?, hexValue?_hexChar hn]
  | case2 n hn ih =>
    rw [hexNumber?] at ih
    rw [hexDigits_of_ge (Nat.not_lt.mp hn), hexNumber?, List.foldlM_append, ih]
    simp [hexValue?_hexChar (Nat.mod_lt n (by decide : 16 > 0)), Nat.div_add_mod]

theorem length_hexDigits_le {n k : Nat} (hk : 0 < k) (h : n < 16 ^ k) :
    (hexDigits n).length ≤ k := by
  induction k, hk using Nat.le_induction generalizing n with
  | base => rw [hexDigits_of_lt h]; rfl
  | succ k hk ih =>
    by_cases hn : n < 16
    · rw [hexDigits_of_lt hn, List.length_singleton]
      omega
    · have hdiv : n / 16 < 16 ^ k := Nat.div_lt_of_lt_mul (by rwa [Nat.pow_succ'] at h)
      rw [hexDigits_of_ge (Nat.not_lt.mp hn), List.length_append, List.length_singleton]
      exact Nat.succ_le_succ (ih hdiv)

end LoadRig.Text
