/-!
# Decimal digits

Natural numbers are written without sign, without leading zeros and without grouping, and read
back from nonempty runs of ASCII digits with any number of leading zeros. Writing and reading are
over lists of characters, because every format of this library is; strings are made at the rim.

## Main definitions

* `LoadRig.Text.digits` — the decimal form of a natural number.
* `LoadRig.Text.digitsValue` — the number that a run of digits denotes.
* `LoadRig.Text.readDigits?` — the same for a text that may hold other characters, or nothing.
* `LoadRig.Text.intDigits` — an integer, with a minus sign before a negative one.
* `LoadRig.Text.padLeft` — a text brought to a least width.
* `LoadRig.Text.hexDigits`, `LoadRig.Text.hexValue?` — hexadecimal digits.
-/

namespace LoadRig.Text

/-- The decimal digits of `n`, most significant first. -/
def digits (n : Nat) : List Char :=
  if n < 10 then [Nat.digitChar n] else digits (n / 10) ++ [Nat.digitChar (n % 10)]
termination_by n
decreasing_by omega

/-- The value of an ASCII digit. -/
def digitValue (c : Char) : Nat := c.toNat - 48

/-- The number that a run of digits denotes; the empty run denotes zero. -/
def digitsValue (cs : List Char) : Nat :=
  cs.foldl (fun n c => 10 * n + digitValue c) 0

/-- Reads a nonempty text of digits and nothing else. -/
def readDigits? (cs : List Char) : Option Nat :=
  if cs.isEmpty || !cs.all Char.isDigit then none else some (digitsValue cs)

/-- The decimal form of an integer. -/
def intDigits : Int → List Char
  | .ofNat n => digits n
  | .negSucc n => '-' :: digits (n + 1)

/-- Puts `fill` before a text until it is `width` characters long. -/
def padLeft (width : Nat) (fill : Char) (cs : List Char) : List Char :=
  List.replicate (width - cs.length) fill ++ cs

/-- Puts `fill` after a text until it is `width` characters long. -/
def padRight (width : Nat) (fill : Char) (cs : List Char) : List Char :=
  cs ++ List.replicate (width - cs.length) fill

/-- The lowercase hexadecimal digit for `d`, which is meant to be below sixteen. -/
def hexChar (d : Nat) : Char :=
  if d < 10 then Char.ofNat (48 + d) else Char.ofNat (87 + d)

/-- Lowercase hexadecimal digits without leading zeros. -/
def hexDigits (n : Nat) : List Char :=
  if n < 16 then [hexChar n] else hexDigits (n / 16) ++ [hexChar (n % 16)]
termination_by n
decreasing_by omega

/-- The value of a hexadecimal digit in either case. -/
def hexValue? (c : Char) : Option Nat :=
  if c.isDigit then some (c.toNat - 48)
  else if 'a'.toNat ≤ c.toNat && c.toNat ≤ 'f'.toNat then some (c.toNat - 87)
  else if 'A'.toNat ≤ c.toNat && c.toNat ≤ 'F'.toNat then some (c.toNat - 55)
  else none

/-- The decimal digits of a number as a string. -/
def digitString (n : Nat) : String := String.ofList (digits n)

theorem digits_of_lt {n : Nat} (h : n < 10) : digits n = [Nat.digitChar n] := by
  rw [digits, if_pos h]

theorem digits_of_ge {n : Nat} (h : 10 ≤ n) :
    digits n = digits (n / 10) ++ [Nat.digitChar (n % 10)] := by
  rw [digits, if_neg (by omega)]

theorem digits_ne_nil (n : Nat) : digits n ≠ [] := by
  rw [digits]; split <;> simp

end LoadRig.Text
