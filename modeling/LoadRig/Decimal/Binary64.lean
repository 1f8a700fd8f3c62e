/-!
# Double-precision numbers taken apart

A finite double is `m * 2 ^ q` for a natural number `m` and an integer `q`. This module reads `m`
and `q` off the sixty-four bits and goes back from an exact ratio of natural numbers to the nearest
double. Nothing here computes in floating point, so that the text of a number is decided by exact
arithmetic.

## Main definitions

* `LoadRig.Decimal.Parts` — sign, significand and exponent, or one of the special values.
* `LoadRig.Decimal.partsOfBits` — the decoder.
* `LoadRig.Decimal.roundDiv` — the nearest integer to a quotient, a half going to the even one.
* `LoadRig.Decimal.nearest` — the double nearest to a ratio, infinite if none is that large.
-/

namespace LoadRig.Decimal

/-- A double taken apart. `narrowBelow` says that the gap to the next smaller double is half the
gap to the next larger one, which happens at powers of two. -/
inductive Parts where
  | nan
  | infinite (negative : Bool)
  | finite (negative : Bool) (significand : Nat) (exponent : Int) (narrowBelow : Bool)
deriving DecidableEq, Repr

/-- The leading bit of a significand, `2 ^ 52`, which the bits of a double leave out. -/
def leadingBit : Nat := 4503599627370496

/-- Reads sign, significand and exponent off the bits of a double. -/
def partsOfBits (bits : UInt64) : Parts :=
  let negative := bits >>> 63 == 1
  let field := ((bits >>> 52) &&& 0x7FF).toNat
  let fraction := (bits &&& 0xFFFFFFFFFFFFF).toNat
  if field == 0x7FF then
    if fraction == 0 then .infinite negative else .nan
  else if field == 0 then .finite negative fraction (-1074) false
  else .finite negative (leadingBit + fraction) ((field : Int) - 1075) (fraction == 0 && field != 1)

/-- The integer nearest to `num / den`; a half goes to the even neighbour. -/
def roundDiv (num den : Nat) : Nat :=
  let floor := num / den
  let rest := 2 * (num % den)
  if rest < den then floor
  else if den < rest then floor + 1
  else if floor % 2 == 0 then floor else floor + 1

/-- `num * 2 ^ e / den` as a ratio of natural numbers. -/
def scaleTwo (num den : Nat) (e : Int) : Nat × Nat :=
  if 0 ≤ e then (num * Nat.pow 2 e.toNat, den) else (num, den * Nat.pow 2 (-e).toNat)

/-- The bits of the nonnegative double nearest to `num / den`, halves to even. -/
def nearestBits (num den : Nat) : UInt64 :=
  if num == 0 then 0
  else
    let rough : Int := (num.log2 : Int) - (den.log2 : Int)
    -- the quotient lies in `[2 ^ e, 2 ^ (e + 1))`
    let e : Int := if let (a, b) := scaleTwo num den (-rough); b ≤ a then rough else rough - 1
    let q : Int := max (e - 52) (-1074)
    let m := let (a, b) := scaleTwo num den (-q); roundDiv a b
    let (m, q) := if m == 2 * leadingBit then (leadingBit, q + 1) else (m, q)
    if 972 ≤ q then 0x7FF0000000000000
    else if m < leadingBit then UInt64.ofNat m
    else UInt64.ofNat ((q + 1075).toNat * leadingBit + (m - leadingBit))

/-- The double nearest to `num / den`. -/
def nearest (num den : Nat) : Float := Float.ofBits (nearestBits num den)

end LoadRig.Decimal
