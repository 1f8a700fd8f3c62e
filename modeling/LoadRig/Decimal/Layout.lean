import LoadRig.Decimal.Shortest
import LoadRig.Text.Digits
/-!
# Numbers on paper

The digits of a double come from `LoadRig.Decimal.shortest`; this module says how they are laid
out. A layout is a record, because two formats of this library share the digits and differ in the
sign of a large exponent and in the special values.

## Main definitions

* `LoadRig.Decimal.Layout` — where positional notation ends, and how the exponent is written.
* `LoadRig.Decimal.Layout.text` — a double in a layout.
* `LoadRig.Decimal.twoPlaces` — a double rounded to hundredths, halves to even.
-/

namespace LoadRig.Decimal

open LoadRig.Text

/-- How the digits of a double become a text. -/
structure Layout where
  /-- The least place of the point that is still written positionally. -/
  leastPoint : Int
  /-- The greatest place of the point that is still written positionally. -/
  greatestPoint : Int
  /-- What stands before an exponent that is not negative. -/
  plus : List Char
  nan : List Char
  infinity : List Char

/-- The digits with the point put in its place, or with an exponent behind them. -/
def Layout.place (l : Layout) (s : Scientific) : List Char :=
  let ds := digits s.coefficient
  let n : Int := ds.length
  if s.point < l.leastPoint || l.greatestPoint < s.point then
    let e := s.point - 1
    let head := match ds with
      | [] => []
      | [d] => [d]
      | d :: rest => d :: '.' :: rest
    head ++ 'e' :: (if 0 ≤ e then l.plus else []) ++ intDigits e
  else if s.point ≤ 0 then
    ['0', '.'] ++ List.replicate (-s.point).toNat '0' ++ ds
  else if s.point < n then
    ds.take s.point.toNat ++ '.' :: ds.drop s.point.toNat
  else ds ++ List.replicate (s.point - n).toNat '0' ++ ['.', '0']

/-- A double in a layout. Zero keeps its sign. -/
def Layout.text (l : Layout) (x : Float) : List Char :=
  match partsOfBits x.toBits with
  | .nan => l.nan
  | .infinite negative => (if negative then ['-'] else []) ++ l.infinity
  | .finite negative m q narrowBelow =>
    (if negative then ['-'] else []) ++
      if m == 0 then ['0', '.', '0'] else l.place (shortest m q narrowBelow)

/-- A whole number of hundredths with two places after the point. -/
def hundredths (n : Nat) : List Char :=
  digits (n / 100) ++ '.' :: padLeft 2 '0' (digits (n % 100))

/-- A double rounded to two places on its exact value. -/
def twoPlaces (x : Float) : List Char :=
  match partsOfBits x.toBits with
  | .nan => ['N', 'a', 'N']
  | .infinite negative => (if negative then ['-'] else []) ++ ['i', 'n', 'f']
  | .finite negative m q _ =>
    let ratio := scaleTwo (m * 100) 1 q
    (if negative then ['-'] else []) ++ hundredths (roundDiv ratio.1 ratio.2)

end LoadRig.Decimal
