import LoadRig.Decimal.Binary64
import LoadRig.Word
/-!
# Reading a significand and a power of ten

A number that was written with a fraction or an exponent is read in two moves: the digits are
gathered into a significand of at most sixty-four bits, and the double nearest to the significand
is multiplied or divided by a power of ten. Each move rounds once, so the result can differ from
the double nearest to the written value in its last bit. Digits beyond the significand are dropped.

## Main definitions

* `LoadRig.Decimal.absorb` — gathers digits while the significand fits.
* `LoadRig.Decimal.scaled?` — the significand times a power of ten; `none` on overflow.
-/

namespace LoadRig.Decimal

/-- The power of ten nearest to `10 ^ k`. -/
def powerOfTen (k : Nat) : Float := nearest (Nat.pow 10 k) 1

/-- The largest power of ten that a double reaches is `10 ^ 308`. -/
def greatestPower : Nat := 308

/-- `x * 10 ^ e`, in steps of at most `10 ^ 308`; `none` when the result is too large. -/
def scale? (x : Float) (e : Int) : Option Float :=
  if e.natAbs ≤ greatestPower then
    if 0 ≤ e then
      let y := x * powerOfTen e.toNat
      if y.isInf then none else some y
    else some (x / powerOfTen (-e).toNat)
  else if x == 0.0 then some x
  else if 0 ≤ e then none
  else scale? (x / powerOfTen greatestPower) (e + greatestPower)
termination_by e.natAbs
decreasing_by simp only [greatestPower] at *; omega

/-- The significand as a double, times `10 ^ e`. -/
def scaled? (significand : Nat) (e : Int) : Option Float :=
  scale? (UInt64.ofNat significand).toFloat e

/-- Whether a significand still fits sixty-four bits. -/
def fitsWord (n : Nat) : Bool := n < wideLimit

/-- Appends digit values to a significand until one would no longer fit, and gives back the
significand with the number of digits that it took. -/
def absorb (significand : Nat) : List Nat → Nat × Nat
  | [] => (significand, 0)
  | d :: ds =>
    if fitsWord (10 * significand + d) then
      let (s, taken) := absorb (10 * significand + d) ds
      (s, taken + 1)
    else (significand, 0)

end LoadRig.Decimal
