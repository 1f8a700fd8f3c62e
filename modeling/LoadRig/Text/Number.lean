import LoadRig.Text.Digits
/-!
# Numbers from outside

A natural number given by somebody may have a plus sign and leading zeros, and must be below a
limit.

## Main definitions

* `LoadRig.Text.readNumber?` — reads such a number.
-/

namespace LoadRig.Text

/-- Reads a number below a limit. -/
def readNumber? (limit : Nat) (s : String) : Option Nat := do
  let n ← match s.toList with
    | '+' :: ds => readDigits? ds
    | ds => readDigits? ds
  if n < limit then some n else none

end LoadRig.Text
