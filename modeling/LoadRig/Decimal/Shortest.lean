import LoadRig.Decimal.Binary64
/-!
# The fewest digits that read back

Among the decimal numbers that round to a given double, the shortest are those with the fewest
significant digits, and of these the text shows the one nearest to the double, or of two equally
near ones the one with an even last digit. For one, two, up to seventeen digits the search looks at
the two neighbours of the value on the grid of that many digits, in exact arithmetic; the first grid
with a neighbour inside the rounding interval wins.

## Main definitions

* `LoadRig.Decimal.Span` — the reals that round to a double, over a common denominator.
* `LoadRig.Decimal.Scientific` — digits and the place of the point: `0.d₁d₂… · 10 ^ point`.
* `LoadRig.Decimal.shortest` — the search.
-/

namespace LoadRig.Decimal

/-- A value and the ends of its rounding interval, each over the denominator `den`. The ends
belong to the interval iff `closed`. -/
structure Span where
  low : Nat
  value : Nat
  high : Nat
  den : Nat
  closed : Bool
deriving Repr

/-- The rounding interval of `m * 2 ^ q`. -/
def Span.ofParts (m : Nat) (q : Int) (narrowBelow : Bool) : Span :=
  let up := Nat.pow 2 (q - 2).toNat
  { low := (4 * m - if narrowBelow then 1 else 2) * up
    value := 4 * m * up
    high := (4 * m + 2) * up
    den := Nat.pow 2 (2 - q).toNat
    closed := m % 2 == 0 }

/-- Decimal digits without trailing zeros, as one number, and the place of the point: the value
is `0.d₁d₂… · 10 ^ point`. -/
structure Scientific where
  coefficient : Nat
  point : Int
deriving DecidableEq, Repr

/-- The span measured in units of `10 ^ g`. -/
def Span.inUnits (s : Span) (g : Int) : Span :=
  let up := Nat.pow 10 (-g).toNat
  { s with low := s.low * up, value := s.value * up, high := s.high * up,
           den := s.den * Nat.pow 10 g.toNat }

/-- Whether the whole number `c` lies in the rounding interval. -/
def Span.holds (s : Span) (c : Nat) : Bool :=
  if s.closed then s.low ≤ c * s.den && c * s.den ≤ s.high
  else s.low < c * s.den && c * s.den < s.high

/-- The neighbour of the value on the grid of whole numbers that the interval holds. If it holds
both it is the nearer one, and halfway between them the even one. -/
def Span.neighbour? (s : Span) : Option Nat :=
  let c := s.value / s.den
  match s.holds c, s.holds (c + 1) with
  | true, true =>
    let twice := 2 * (s.value % s.den)
    some (if twice < s.den || (twice == s.den && c % 2 == 0) then c else c + 1)
  | true, false => some c
  | false, true => some (c + 1)
  | false, false => none

/-- The exponent `e` with `10 ^ (e - 1) ≤ value < 10 ^ e`, for a positive value whose binary
exponent is `two`. -/
def Span.point (s : Span) (two : Int) : Int :=
  let guess := (two * 30103).fdiv 100000
  let below (e : Int) : Bool := s.value * Nat.pow 10 (-e).toNat < s.den * Nat.pow 10 e.toNat
  ([guess - 1, guess, guess + 1, guess + 2].find? below).getD (guess + 3)

/-- Takes zeros off the end of a coefficient, which changes neither value nor point. -/
def stripZeros : Nat → Nat → Nat
  | 0, c => c
  | fuel + 1, c => if c % 10 == 0 && c != 0 then stripZeros fuel (c / 10) else c

/-- The shortest decimal form of the positive double `m * 2 ^ q`. -/
def shortest (m : Nat) (q : Int) (narrowBelow : Bool) : Scientific :=
  let s := Span.ofParts m q narrowBelow
  let point := s.point ((m.log2 : Int) + q)
  let found := (List.range 17).findSome? fun (k : Nat) =>
    ((s.inUnits (point - ((k + 1 : Nat) : Int))).neighbour?).map fun c => (k + 1, c)
  match found with
  | some (k, c) =>
    if c == Nat.pow 10 k then ⟨1, point + 1⟩ else ⟨stripZeros 17 c, point⟩
  | none => ⟨stripZeros 17 (s.inUnits (point - 17)).value, point⟩

end LoadRig.Decimal
