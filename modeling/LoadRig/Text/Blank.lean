/-!
# Blank characters

A required text field counts as missing when nothing but white space is in it. White space is
the Unicode property `White_Space`, which is wider than the class of `Char.isWhitespace`: it has
the vertical tab, the form feed, the no-break spaces and the typographic spaces.

## Main definitions

* `LoadRig.Text.blankRanges` — the property as inclusive ranges of scalar values.
* `LoadRig.Text.isBlank` — membership of one character.
* `LoadRig.Text.allBlank` — a text in which every character is blank, the empty text included.
-/

namespace LoadRig.Text

/-- The scalar values with the property `White_Space`, as inclusive ranges in ascending order. -/
def blankRanges : List (Nat × Nat) :=
  [(0x09, 0x0D), (0x20, 0x20), (0x85, 0x85), (0xA0, 0xA0), (0x1680, 0x1680), (0x2000, 0x200A),
    (0x2028, 0x2029), (0x202F, 0x202F), (0x205F, 0x205F), (0x3000, 0x3000)]

/-- Whether a character is white space. -/
def isBlank (c : Char) : Bool :=
  blankRanges.any fun r => r.1 ≤ c.toNat && c.toNat ≤ r.2

/-- Whether a text holds white space only. -/
def allBlank (cs : List Char) : Bool :=
  cs.all isBlank

@[simp] theorem allBlank_nil : allBlank [] = true := rfl

end LoadRig.Text
