import LoadRig.Text.Digits
/-!
# Quoted names in messages

File names and texts appear in messages between double quotes, with the characters that would not
show escaped. A single quote is escaped as well, because the same rule serves both kinds of quote.

## Main definitions

* `LoadRig.Text.debugChar` — one character inside the quotes.
* `LoadRig.Text.debugQuoted` — a whole name.
-/

namespace LoadRig.Text

/-- Scalar values beyond ASCII that leave no mark of their own on paper: the C1 controls, the
format characters, the separators other than the space, the combining marks of the common blocks,
the private areas and the noncharacters at the end of a plane. -/
def unseenRanges : List (Nat × Nat) :=
  [(0x80, 0xA0), (0xAD, 0xAD), (0x300, 0x36F), (0x483, 0x489), (0x591, 0x5BD), (0x600, 0x605),
    (0x610, 0x61A), (0x61C, 0x61C), (0x64B, 0x65F), (0x6DD, 0x6DD), (0x1680, 0x1680),
    (0x180B, 0x180F), (0x1AB0, 0x1ACE), (0x1DC0, 0x1DFF), (0x2000, 0x200F), (0x2028, 0x202F),
    (0x205F, 0x206F), (0x20D0, 0x20F0), (0x3000, 0x3000), (0x302A, 0x302F), (0x3099, 0x309A),
    (0xE000, 0xF8FF), (0xFE00, 0xFE0F), (0xFE20, 0xFE2F), (0xFEFF, 0xFEFF), (0xFFF0, 0xFFFB),
    (0xFFFE, 0xFFFF), (0x1FFFE, 0x1FFFF), (0xE0000, 0x10FFFF)]

/-- One character as it stands inside the quotes. -/
def debugChar (c : Char) : List Char :=
  if c == '"' then ['\\', '"']
  else if c == '\'' then ['\\', '\'']
  else if c == '\\' then ['\\', '\\']
  else if c == '\n' then ['\\', 'n']
  else if c == '\r' then ['\\', 'r']
  else if c == '\t' then ['\\', 't']
  else if c == '\x00' then ['\\', '0']
  else if c.toNat < 0x20 || c.toNat == 0x7F ||
      unseenRanges.any (fun r => r.1 ≤ c.toNat && c.toNat ≤ r.2) then
    ['\\', 'u', '\x7b'] ++ hexDigits c.toNat ++ ['\x7d']
  else [c]

/-- A name between double quotes. -/
def debugQuoted (s : String) : String :=
  String.ofList ('"' :: s.toList.flatMap debugChar ++ ['"'])

end LoadRig.Text
