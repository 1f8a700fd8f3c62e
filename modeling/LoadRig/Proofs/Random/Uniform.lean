import LoadRig.Random.Uniform
import Mathlib.Algebra.Order.Ring.Nat
/-!
# What a uniform choice yields

A choice below `n` passes words over until one is taken, and the number is the high half of the
product of that word with `n`. This is said here as a relation between the source before, the number
and the source after, which does not count the words that are passed over. The choice that runs does
count them. It agrees with the relation unless `2 ^ 64` words in a row are passed over, and then it
yields zero.

Nothing is lost on the way, for any `n` from one to the greatest word: `n` shifted up to the width of
a word still fits into one, and a product fits into two.

## Main definitions

* `LoadRig.Random.Taken` — a word that is not passed over.
* `LoadRig.Random.Chooses` — the choice as a relation; `LoadRig.Random.Stalls` — nothing is taken.
* `LoadRig.Random.Picks` — what a choice can yield.
* `LoadRig.Random.Exact` — a choice that is computed without loss.

## Main results

* `LoadRig.Random.picks_of_below` — the choice that runs yields what it can yield.
* `LoadRig.Random.Picks.lt` — a number below `n`.
* `LoadRig.Random.exact_of_lt` — every choice is computed without loss.
-/

namespace LoadRig.Random

variable {σ : Type} [WordSource σ] {w : Width} {n k tries : Nat} {s s' : σ}

/-! ### Words -/

theorem Width.limit_eq_pow (w : Width) : w.limit = 2 ^ w.bits := by
  cases w
  · exact narrowLimit_eq_pow
  · exact wideLimit_eq_pow

/-- A word fits its width. -/
theorem Width.draw_lt (w : Width) (s : σ) : (w.draw s).1 < w.limit := by
  cases w with
  | narrow => exact (WordSource.next s).1.toNat_lt
  | wide =>
    have hlow := (WordSource.next s).1.toNat_lt
    have hhigh := (WordSource.next (WordSource.next s).2).1.toNat_lt
    show (WordSource.next s).1.toNat + (WordSource.next (WordSource.next s).2).1.toNat * 4294967296
      < 18446744073709551616
    omega

/-! ### The choice as a relation -/

/-- A word that does not lie in the incomplete share. -/
def Taken (w : Width) (n x : Nat) : Prop := x * n % w.limit ≤ zone w n

/-- A source chooses a number below `n`: words are passed over until one is taken, and the number is
the high half of its product with `n`. -/
inductive Chooses (w : Width) (n : Nat) : σ → Nat → σ → Prop
  | take (s : σ) (h : Taken w n (w.draw s).1) :
      Chooses w n s ((w.draw s).1 * n / w.limit) (w.draw s).2
  | pass (s : σ) (h : ¬Taken w n (w.draw s).1) {k : Nat} {s' : σ}
      (rest : Chooses w n (w.draw s).2 k s') : Chooses w n s k s'

/-- So many words in a row are passed over. -/
def Stalls (w : Width) (n : Nat) : Nat → σ → Prop
  | 0, _ => True
  | tries + 1, s => ¬Taken w n (w.draw s).1 ∧ Stalls w n tries (w.draw s).2

/-- What a choice can yield. A source that passes `2 ^ 64` words over in a row is given up, and zero
stands for the number. -/
def Picks (w : Width) (n : Nat) (s : σ) (k : Nat) (s' : σ) : Prop :=
  Chooses w n s k s' ∨ (Stalls w n wideLimit s ∧ k = 0)

/-- The high half of a product with `n` is below `n`. -/
theorem share_lt (hn : 0 < n) {x : Nat} (hx : x < w.limit) : x * n / w.limit < n :=
  Nat.div_lt_of_lt_mul (Nat.mul_lt_mul_of_pos_right hx hn)

theorem Chooses.lt (h : Chooses w n s k s') (hn : 0 < n) : k < n := by
  induction h with
  | take s _ => exact share_lt hn (w.draw_lt s)
  | pass _ _ _ ih => exact ih

/-- **A choice yields a number below `n`.** -/
theorem Picks.lt (h : Picks w n s k s') (hn : 0 < n) : k < n := by
  rcases h with h | ⟨-, rfl⟩
  · exact h.lt hn
  · exact hn

theorem belowAux_succ (w : Width) (n tries : Nat) (s : σ) :
    belowAux w n (tries + 1) s =
      if (w.draw s).1 * n % w.limit ≤ zone w n then ((w.draw s).1 * n / w.limit, (w.draw s).2)
      else belowAux w n tries (w.draw s).2 := rfl

/-- The tries are words that are passed over, up to the one that is taken. -/
theorem chooses_belowAux (w : Width) (n tries : Nat) (s : σ) :
    Chooses w n s (belowAux w n tries s).1 (belowAux w n tries s).2 ∨
      (Stalls w n tries s ∧ (belowAux w n tries s).1 = 0) := by
  induction tries generalizing s with
  | zero => exact .inr ⟨trivial, rfl⟩
  | succ tries ih =>
    rw [belowAux_succ]
    by_cases h : (w.draw s).1 * n % w.limit ≤ zone w n
    · rw [if_pos h]
      exact .inl (.take s h)
    · rw [if_neg h]
      rcases ih (w.draw s).2 with hrest | ⟨hstall, hzero⟩
      · exact .inl (.pass s h hrest)
      · exact .inr ⟨⟨h, hstall⟩, hzero⟩

/-- **The choice that runs yields what a choice can yield.** -/
theorem picks_of_below (h : n < w.limit) (hk : below w n s = (k, s')) : Picks w n s k s' := by
  rw [below, if_neg (Nat.ne_of_lt h)] at hk
  have hchosen := chooses_belowAux w n wideLimit s
  rw [hk] at hchosen
  exact hchosen

/-! ### Exact computation -/

/-- A choice that is computed without loss in words of its width, and in pairs of them. -/
structure Exact (w : Width) (n : Nat) : Prop where
  /-- No bit of `n` is shifted out of the word, and the topmost bit of the word is used. -/
  shifted : w.limit ≤ 2 * (n * 2 ^ (w.bits - 1 - n.log2)) ∧
    n * 2 ^ (w.bits - 1 - n.log2) < w.limit
  /-- The last low half that is taken is one less than that. -/
  zone_succ : zone w n + 1 = n * 2 ^ (w.bits - 1 - n.log2)
  /-- Every product fits into two words, and its high half is a number below `n`. -/
  product : ∀ x < w.limit, x * n < w.limit * w.limit ∧ x * n / w.limit < n

/-- **Every choice is computed without loss**, up to that below the greatest word. -/
theorem exact_of_lt (hn : 0 < n) (h : n < w.limit) : Exact w n := by
  have hne : n ≠ 0 := Nat.ne_of_gt hn
  have hpos : 0 < 2 ^ (w.bits - 1 - n.log2) := Nat.two_pow_pos _
  have hlog : n.log2 < w.bits := (Nat.log2_lt hne).mpr (w.limit_eq_pow ▸ h)
  have hwhole : 2 ^ (n.log2 + 1) * 2 ^ (w.bits - 1 - n.log2) = w.limit := by
    rw [w.limit_eq_pow, ← Nat.pow_add]
    congr 1
    omega
  refine { shifted := ⟨?_, ?_⟩, zone_succ := ?_, product := ?_ }
  · calc w.limit
        = 2 * (2 ^ n.log2 * 2 ^ (w.bits - 1 - n.log2)) := by
          rw [← hwhole, Nat.pow_succ', Nat.mul_assoc]
      _ ≤ 2 * (n * 2 ^ (w.bits - 1 - n.log2)) :=
          Nat.mul_le_mul_left _ (Nat.mul_le_mul_right _ (Nat.log2_self_le hne))
  · calc n * 2 ^ (w.bits - 1 - n.log2)
        < 2 ^ (n.log2 + 1) * 2 ^ (w.bits - 1 - n.log2) :=
          Nat.mul_lt_mul_of_pos_right Nat.lt_log2_self hpos
      _ = w.limit := hwhole
  · exact Nat.sub_add_cancel (Nat.mul_pos hn hpos)
  · intro x hx
    constructor
    · exact Nat.mul_lt_mul'' hx h
    · exact share_lt hn hx

end LoadRig.Random
