import LoadRig.Text.Digits
import LoadRig.Text.Fields
/-!
# Addresses of four numbers

An address of the fourth version of the internet protocol, written as four decimal numbers with
points between them. The strict form that is read here has no leading zeros, so each address has one
text.

## Main definitions

* `LoadRig.Net.Ipv4` — an address; `LoadRig.Net.Ipv4.text` is its text.
* `LoadRig.Net.Ipv4.parse?` — reads the text.
* `LoadRig.Net.Ipv4.ofNat` — the address with a number of thirty-two bits.
-/

namespace LoadRig.Net

open LoadRig.Text

/-- An address: its four numbers in writing order. -/
structure Ipv4 where
  first : Fin 256
  second : Fin 256
  third : Fin 256
  fourth : Fin 256
deriving DecidableEq, Repr

namespace Ipv4

/-- The number in the lowest eight bits. -/
def octetOf (n : Nat) : Fin 256 := ⟨n % 256, Nat.mod_lt n (by decide)⟩

/-- The address with a number, of which the lowest thirty-two bits count. -/
def ofNat (n : Nat) : Ipv4 :=
  { first := octetOf (n / 16777216), second := octetOf (n / 65536), third := octetOf (n / 256),
    fourth := octetOf n }

/-- The text of an address. -/
def text (a : Ipv4) : List Char :=
  joined '.' [digits a.first.val, digits a.second.val, digits a.third.val, digits a.fourth.val]

/-- Reads one number of the strict form. -/
def octet? (cs : List Char) : Option (Fin 256) := do
  let n ← readDigits? cs
  if h : n < 256 then
    if cs.length = 1 ∨ cs.head? ≠ some '0' then some ⟨n, h⟩ else none
  else none

/-- Reads an address in the strict form. -/
def parse? (cs : List Char) : Option Ipv4 :=
  match fields (· == '.') cs with
  | [a, b, c, d] => do
    return { first := ← octet? a, second := ← octet? b, third := ← octet? c, fourth := ← octet? d }
  | _ => none

end Ipv4

end LoadRig.Net
