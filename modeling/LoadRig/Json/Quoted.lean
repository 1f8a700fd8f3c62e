import LoadRig.Text.Digits
/-!
# String literals

A text is written between double quotes. The quote, the backslash and five control characters have
a short escape, the other characters below the space a numeric one, and everything else stands for
itself. A literal that is read may use the numeric escape for any code unit of UTF-16, so what was
read is first a list of pieces; the characters come out of it if the code units pair up.

## Main definitions

* `LoadRig.Json.escape`, `LoadRig.Json.quoted` — the written form of a text.
* `LoadRig.Json.Piece` — one item of a literal as it was read.
* `LoadRig.Json.readPieces?` — reads a literal up to its closing quote.
* `LoadRig.Json.decodePieces?` — the characters of a literal; `none` for a lone surrogate.
-/

namespace LoadRig.Json

open LoadRig.Text

/-! ### Writing -/

/-- One character inside a literal. -/
def escape (c : Char) : List Char :=
  if c == '"' then ['\\', '"']
  else if c == '\\' then ['\\', '\\']
  else if c == '\x08' then ['\\', 'b']
  else if c == '\x0c' then ['\\', 'f']
  else if c == '\n' then ['\\', 'n']
  else if c == '\r' then ['\\', 'r']
  else if c == '\t' then ['\\', 't']
  else if c.toNat < 0x20 then
    ['\\', 'u', '0', '0', hexChar (c.toNat / 16), hexChar (c.toNat % 16)]
  else [c]

/-- The literal of a text. -/
def quoted (cs : List Char) : List Char :=
  '"' :: cs.flatMap escape ++ ['"']

/-! ### Reading -/

/-- One item of a literal: a character, or the code unit of a numeric escape. -/
inductive Piece where
  | char (c : Char)
  | unit (u : Nat)
deriving DecidableEq, Repr

/-- The character that a short escape stands for. -/
def shortEscape? (c : Char) : Option Char :=
  if c == '"' then some '"'
  else if c == '\\' then some '\\'
  else if c == '/' then some '/'
  else if c == 'b' then some '\x08'
  else if c == 'f' then some '\x0c'
  else if c == 'n' then some '\n'
  else if c == 'r' then some '\r'
  else if c == 't' then some '\t'
  else none

/-- The code unit of four hexadecimal digits. -/
def unit? (a b c d : Char) : Option Nat := do
  let a ← hexValue? a
  let b ← hexValue? b
  let c ← hexValue? c
  let d ← hexValue? d
  return ((a * 16 + b) * 16 + c) * 16 + d

/-- Reads the rest of a literal whose opening quote is gone. Control characters below the space
do not stand for themselves. -/
def readPieces? : List Char → Option (List Piece × List Char)
  | [] => none
  | '"' :: rest => some ([], rest)
  | '\\' :: 'u' :: a :: b :: c :: d :: rest => do
    let u ← unit? a b c d
    let (pieces, rest) ← readPieces? rest
    return (.unit u :: pieces, rest)
  | '\\' :: e :: rest => do
    let c ← shortEscape? e
    let (pieces, rest) ← readPieces? rest
    return (.char c :: pieces, rest)
  | c :: rest =>
    if c.toNat < 0x20 || c == '\\' then none
    else do
      let (pieces, rest) ← readPieces? rest
      return (.char c :: pieces, rest)

/-- Whether a code unit opens a surrogate pair. -/
def isHigh (u : Nat) : Bool := 0xD800 ≤ u && u ≤ 0xDBFF

/-- Whether a code unit closes a surrogate pair. -/
def isLow (u : Nat) : Bool := 0xDC00 ≤ u && u ≤ 0xDFFF

/-- The character of a surrogate pair. -/
def pairChar (high low : Nat) : Char :=
  Char.ofNat (0x10000 + (high - 0xD800) * 0x400 + (low - 0xDC00))

/-- The characters of a literal. A surrogate stands for nothing on its own. -/
def decodePieces? : List Piece → Option (List Char)
  | [] => some []
  | .char c :: rest => (decodePieces? rest).map (c :: ·)
  | .unit u :: rest =>
    if isHigh u then
      match rest with
      | .unit v :: rest' =>
        if isLow v then (decodePieces? rest').map (pairChar u v :: ·) else none
      | _ => none
    else if isLow u then none
    else (decodePieces? rest).map (Char.ofNat u :: ·)

end LoadRig.Json
