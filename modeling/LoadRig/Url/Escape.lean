import LoadRig.Text.Digits
/-!
# Percent signs in addresses

A character that may not stand in a part of an address is written as its bytes, each as a percent
sign and two capital hexadecimal digits. Which characters these are depends on the part. What is
written in this way already is left as it is, because the percent sign itself may stand anywhere.

## Main definitions

* `LoadRig.Url.escape` — escapes the characters of a text that need it.
* `LoadRig.Url.inUserInfo`, `LoadRig.Url.inPath`, `LoadRig.Url.inQuery`, `LoadRig.Url.inFragment`
* `LoadRig.Url.unescape` — the bytes that stand behind percent signs.
* `LoadRig.Url.asciiText?`, `LoadRig.Url.unescapeText?` — the text that they make.
-/

namespace LoadRig.Url

open LoadRig.Text

/-- A byte as a percent sign and two digits. -/
def escapeByte (b : UInt8) : List Char :=
  ['%', (hexChar (b.toNat / 16)).toUpper, (hexChar (b.toNat % 16)).toUpper]

/-- Escapes one character if it needs it. -/
def escapeChar (needs : Char → Bool) (c : Char) : List Char :=
  if needs c then (String.utf8EncodeChar c).flatMap escapeByte else [c]

/-- Escapes the characters of a text that need it. -/
def escape (needs : Char → Bool) (cs : List Char) : List Char := cs.flatMap (escapeChar needs)

/-- Control characters, and everything beyond ASCII. -/
def isControl (c : Char) : Bool := c.toNat < 0x20 || 0x7F ≤ c.toNat

/-- The characters that are escaped in a fragment. -/
def inFragment (c : Char) : Bool := isControl c || [' ', '"', '<', '>', '\x60'].contains c

/-- The characters that are escaped in the query of an address with a well-known scheme. -/
def inQuery (c : Char) : Bool := isControl c || [' ', '"', '#', '<', '>', '\''].contains c

/-- The characters that are escaped in a path. -/
def inPath (c : Char) : Bool := inFragment c || ['#', '?', '\x7b', '\x7d'].contains c

/-- The characters that are escaped in a name or a password. -/
def inUserInfo (c : Char) : Bool :=
  inPath c || ['/', ':', ';', '=', '@', '[', '\\', ']', '^', '|'].contains c

/-- The bytes of a text, with those behind percent signs read. A percent sign without two digits
stands for itself. -/
def unescape : List Char → List UInt8
  | [] => []
  | '%' :: a :: b :: rest =>
    match hexValue? a, hexValue? b with
    | some x, some y => UInt8.ofNat (16 * x + y) :: unescape rest
    | _, _ => '%'.val.toUInt8 :: unescape (a :: b :: rest)
  | c :: rest => String.utf8EncodeChar c ++ unescape rest

/-- The text that bytes make, if it is ASCII. -/
def asciiText? (bytes : List UInt8) : Option (List Char) :=
  if bytes.all (· < 0x80) then some (bytes.map fun b => Char.ofNat b.toNat) else none

/-- The text behind percent signs, if its bytes make one. -/
def unescapeText? (cs : List Char) : Option (List Char) :=
  (String.fromUTF8? ⟨(unescape cs).toArray⟩).map (·.toList)

end LoadRig.Url
