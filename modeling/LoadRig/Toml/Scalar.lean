import LoadRig.Decimal.Binary64
import LoadRig.Time.Calendar
import LoadRig.Toml.Item
import LoadRig.Word
/-!
# Strings, numbers and dates in TOML

Each reader takes what it can from the front of a text and gives back the rest; what may follow is
for the caller to check. Since nothing that may follow a value can continue one, it does no harm to
take an integer off the front of something that turns out to be neither number nor date.

## Main definitions

* `LoadRig.Toml.isText` — the characters that stand for themselves.
* `LoadRig.Toml.readString?` — the four sorts of string.
* `LoadRig.Toml.readMoment?`, `LoadRig.Toml.readNumber?`
-/

namespace LoadRig.Toml

open LoadRig.Text

/-- Whether a character may stand between tokens of a line. -/
def isGap (c : Char) : Bool := c == ' ' || c == '\t'

/-- Drops blanks of a line. -/
def skipGap (cs : List Char) : List Char := cs.dropWhile isGap

/-- Whether a character stands for itself in comments and strings: the tab and everything but the
control characters of ASCII. -/
def isText (c : Char) : Bool := c == '\t' || (0x20 ≤ c.toNat && c.toNat != 0x7F)

/-- Takes a line feed, with or without a carriage return before it. -/
def takeNewline? : List Char → Option (List Char)
  | '\n' :: rest => some rest
  | '\r' :: '\n' :: rest => some rest
  | _ => none

/-! ### Strings -/

/-- The character of hexadecimal digits; surrogates and numbers beyond the last character stand
for none. -/
def scalar? (ds : List Char) : Option Char := do
  let n ← ds.foldlM (fun n c => (hexValue? c).map (16 * n + ·)) 0
  if n < 0xD800 || (0xDFFF < n && n ≤ 0x10FFFF) then some (Char.ofNat n) else none

/-- The character that a short escape stands for. -/
def shortEscape? (c : Char) : Option Char :=
  if c == 'b' then some '\x08'
  else if c == 't' then some '\t'
  else if c == 'n' then some '\n'
  else if c == 'f' then some '\x0c'
  else if c == 'r' then some '\r'
  else if c == '"' then some '"'
  else if c == '\\' then some '\\'
  else none

/-- Reads the rest of a string in double quotes on one line. -/
def readBasic? : List Char → Option (List Char × List Char)
  | [] => none
  | '"' :: rest => some ([], rest)
  | '\\' :: 'u' :: a :: b :: c :: d :: rest => do
    let x ← scalar? [a, b, c, d]
    let (s, rest) ← readBasic? rest
    return (x :: s, rest)
  | '\\' :: 'U' :: a :: b :: c :: d :: e :: f :: g :: h :: rest => do
    let x ← scalar? [a, b, c, d, e, f, g, h]
    let (s, rest) ← readBasic? rest
    return (x :: s, rest)
  | '\\' :: e :: rest => do
    let x ← shortEscape? e
    let (s, rest) ← readBasic? rest
    return (x :: s, rest)
  | c :: rest =>
    if isText c && c != '\\' then do
      let (s, rest) ← readBasic? rest
      return (c :: s, rest)
    else none

/-- Reads the rest of a string in single quotes on one line. -/
def readLiteral? : List Char → Option (List Char × List Char)
  | [] => none
  | '\'' :: rest => some ([], rest)
  | c :: rest =>
    if isText c then do
      let (s, rest) ← readLiteral? rest
      return (c :: s, rest)
    else none

/-- Drops blanks and line ends, as after a backslash at the end of a line. -/
def skipLines : List Char → List Char
  | '\n' :: rest => skipLines rest
  | '\r' :: '\n' :: rest => skipLines rest
  | c :: rest => if isGap c then skipLines rest else c :: rest
  | [] => []

/-- Closing quotes of a string over several lines: three of them close it, and one or two more
before them belong to the string. Gives back those, and the rest. -/
def takeClosing? (quote : Char) (cs : List Char) : Option (List Char × List Char) :=
  let run := (cs.takeWhile (· == quote)).length
  if run < 3 then none
  else
    let extra := min (run - 3) 2
    some (List.replicate extra quote, cs.drop (extra + 3))

/-- Reads the rest of a string in three double quotes. Line ends become line feeds; a backslash at
the end of a line takes away everything up to the next character that is no blank. -/
def readLongBasic? : Nat → List Char → Option (List Char × List Char)
  | 0, _ => none
  | fuel + 1, cs =>
    match takeClosing? '"' cs with
    | some r => some r
    | none =>
      match cs with
      | [] => none
      | '\n' :: rest => (readLongBasic? fuel rest).map fun (s, rest) => ('\n' :: s, rest)
      | '\r' :: '\n' :: rest => (readLongBasic? fuel rest).map fun (s, rest) => ('\n' :: s, rest)
      | '\\' :: 'u' :: a :: b :: c :: d :: rest => do
        let x ← scalar? [a, b, c, d]
        let (s, rest) ← readLongBasic? fuel rest
        return (x :: s, rest)
      | '\\' :: 'U' :: a :: b :: c :: d :: e :: f :: g :: h :: rest => do
        let x ← scalar? [a, b, c, d, e, f, g, h]
        let (s, rest) ← readLongBasic? fuel rest
        return (x :: s, rest)
      | '\\' :: e :: rest =>
        match takeNewline? (skipGap (e :: rest)) with
        | some rest => readLongBasic? fuel (skipLines rest)
        | none => do
          let x ← shortEscape? e
          let (s, rest) ← readLongBasic? fuel rest
          return (x :: s, rest)
      | c :: rest =>
        if isText c && c != '\\' then
          (readLongBasic? fuel rest).map fun (s, rest) => (c :: s, rest)
        else none

/-- Reads the rest of a string in three single quotes. -/
def readLongLiteral? : Nat → List Char → Option (List Char × List Char)
  | 0, _ => none
  | fuel + 1, cs =>
    match takeClosing? '\'' cs with
    | some r => some r
    | none =>
      match cs with
      | [] => none
      | '\n' :: rest => (readLongLiteral? fuel rest).map fun (s, rest) => ('\n' :: s, rest)
      | '\r' :: '\n' :: rest => (readLongLiteral? fuel rest).map fun (s, rest) => ('\n' :: s, rest)
      | c :: rest =>
        if isText c then (readLongLiteral? fuel rest).map fun (s, rest) => (c :: s, rest)
        else none

/-- Drops a line end right behind opening quotes. -/
def dropFirstLine (cs : List Char) : List Char := (takeNewline? cs).getD cs

/-- Reads a string of any sort, its opening quotes included. -/
def readString? (cs : List Char) : Option (List Char × List Char) :=
  match cs with
  | '"' :: '"' :: '"' :: rest => readLongBasic? (rest.length + 1) (dropFirstLine rest)
  | '\'' :: '\'' :: '\'' :: rest => readLongLiteral? (rest.length + 1) (dropFirstLine rest)
  | '"' :: rest => readBasic? rest
  | '\'' :: rest => readLiteral? rest
  | _ => none

/-! ### Dates and times -/

/-- Takes exactly `n` digits that make a number from `low` to `high`. -/
def takeField? (n low high : Nat) (cs : List Char) : Option (Nat × List Char) :=
  let ds := cs.take n
  if ds.length = n ∧ ds.all Char.isDigit ∧ low ≤ digitsValue ds ∧ digitsValue ds ≤ high then
    some (digitsValue ds, cs.drop n)
  else none

/-- Takes one character. -/
def takeMark? (p : Char → Bool) : List Char → Option (List Char)
  | [] => none
  | c :: cs => if p c then some cs else none

/-- Takes a date of the calendar. -/
def takeDate? (cs : List Char) : Option (List Char) := do
  let (year, cs) ← takeField? 4 0 9999 cs
  let cs ← takeMark? (· == '-') cs
  let (month, cs) ← takeField? 2 1 12 cs
  let cs ← takeMark? (· == '-') cs
  let (_, cs) ← takeField? 2 1 (Time.daysIn year month) cs
  return cs

/-- Takes a time of day. -/
def takeTime? (cs : List Char) : Option (List Char) := do
  let (_, cs) ← takeField? 2 0 23 cs
  let cs ← takeMark? (· == ':') cs
  let (_, cs) ← takeField? 2 0 59 cs
  let cs ← takeMark? (· == ':') cs
  let (_, cs) ← takeField? 2 0 60 cs
  match cs with
  | '.' :: rest =>
    if rest.head?.any Char.isDigit then some (rest.dropWhile Char.isDigit) else none
  | _ => some cs

/-- Takes an offset from universal time. -/
def takeOffset? (cs : List Char) : Option (List Char) :=
  match cs with
  | 'Z' :: rest => some rest
  | 'z' :: rest => some rest
  | _ => do
    let cs ← takeMark? (fun c => c == '+' || c == '-') cs
    let (_, cs) ← takeField? 2 0 23 cs
    let cs ← takeMark? (· == ':') cs
    let (_, cs) ← takeField? 2 0 59 cs
    return cs

/-- Takes a date, a date with a time, with an offset or without, or a time. -/
def readMoment? (cs : List Char) : Option (List Char) :=
  match takeDate? cs with
  | some rest =>
    match (takeMark? (fun c => c == 'T' || c == 't' || c == ' ') rest).bind takeTime? with
    | some rest' => some ((takeOffset? rest').getD rest')
    | none => some rest
  | none => takeTime? cs

/-! ### Numbers -/

/-- Digits of a base, single underscores between them, without the underscores. -/
def takeDigits (isBase : Char → Bool) : List Char → List Char × List Char
  | '_' :: c :: rest =>
    if isBase c then
      let (ds, rest) := takeDigits isBase rest
      (c :: ds, rest)
    else ([], '_' :: c :: rest)
  | c :: rest =>
    if isBase c then
      let (ds, rest) := takeDigits isBase rest
      (c :: ds, rest)
    else ([], c :: rest)
  | [] => ([], [])

/-- One or more digits of a base; the first stands without an underscore. -/
def takeSomeDigits? (isBase : Char → Bool) (cs : List Char) : Option (List Char × List Char) :=
  match cs with
  | c :: rest =>
    if isBase c then
      let (ds, rest) := takeDigits isBase rest
      some (c :: ds, rest)
    else none
  | [] => none

/-- A sign, if one is there, and whether it is a minus. -/
def takeSign (cs : List Char) : Bool × List Char :=
  match cs with
  | '-' :: rest => (true, rest)
  | '+' :: rest => (false, rest)
  | _ => (false, cs)

/-- The digits of a decimal integer: a lone zero, or digits that do not begin with zero. -/
def takeDecimal? (cs : List Char) : Option (List Char × List Char) :=
  match cs with
  | '0' :: rest => some (['0'], rest)
  | _ => takeSomeDigits? Char.isDigit cs

/-- Digits behind a point, if there is one. -/
def takeFraction? (cs : List Char) : Option (Option (List Char) × List Char) :=
  match cs with
  | '.' :: rest => (takeSomeDigits? Char.isDigit rest).map fun (ds, rest) => (some ds, rest)
  | _ => some (none, cs)

/-- An exponent, if there is one. -/
def takeExponent? (cs : List Char) : Option (Option Int × List Char) :=
  match cs with
  | c :: rest =>
    if c == 'e' || c == 'E' then
      let (negative, rest) := takeSign rest
      (takeSomeDigits? Char.isDigit rest).map fun (ds, rest) =>
        let e : Int := digitsValue ds
        (some (if negative then -e else e), rest)
    else some (none, cs)
  | [] => some (none, cs)

/-- Whether `m * 10 ^ e` is too large for a double. -/
def isTooLarge (m : Nat) (e : Int) : Bool :=
  let magnitude : Int := (digits m).length + e
  if m == 0 || magnitude < 300 then false
  else if 400 < magnitude then true
  else Decimal.nearestBits (m * Nat.pow 10 e.toNat) (Nat.pow 10 (-e).toNat) == 0x7FF0000000000000

/-- Reads a number in decimal notation: a float if it has a fraction or an exponent, else an
integer of sixty-four bits. A float may be too small, but a positive one not too large. -/
def readDecimal? (cs : List Char) : Option (Item × List Char) := do
  let (negative, cs) := takeSign cs
  let (whole, cs) ← takeDecimal? cs
  let (fraction, cs) ← takeFraction? cs
  let (exponent, cs) ← takeExponent? cs
  if fraction.isSome || exponent.isSome then
    let behind := fraction.getD []
    let m := digitsValue (whole ++ behind)
    if !negative && isTooLarge m (exponent.getD 0 - behind.length) then none
    else some (.float, cs)
  else
    let m : Int := digitsValue whole
    let n := if negative then -m else m
    if -(signedLimit : Int) ≤ n && n < signedLimit then some (.integer n, cs) else none

/-- Whether a character is an octal digit. -/
def isOctal (c : Char) : Bool := '0'.toNat ≤ c.toNat && c.toNat ≤ '7'.toNat

/-- Whether a character is a binary digit. -/
def isBinary (c : Char) : Bool := c == '0' || c == '1'

/-- Whether a character is a hexadecimal digit. -/
def isHex (c : Char) : Bool := (hexValue? c).isSome

/-- Reads the digits of an integer in another base. -/
def readBase? (base : Nat) (isBase : Char → Bool) (cs : List Char) : Option (Item × List Char) := do
  let (ds, cs) ← takeSomeDigits? isBase cs
  let n := ds.foldl (fun n c => base * n + (hexValue? c).getD 0) 0
  if n < signedLimit then some (.integer n, cs) else none

/-- Reads the special floats, without a sign. -/
def readSpecial? : List Char → Option (Item × List Char)
  | 'i' :: 'n' :: 'f' :: rest => some (.float, rest)
  | 'n' :: 'a' :: 'n' :: rest => some (.float, rest)
  | _ => none

/-- Reads a number or a date. -/
def readNumber? (cs : List Char) : Option (Item × List Char) :=
  match readMoment? cs with
  | some rest => some (.moment, rest)
  | none =>
    match cs with
    | '0' :: 'x' :: rest => readBase? 16 isHex rest
    | '0' :: 'o' :: rest => readBase? 8 isOctal rest
    | '0' :: 'b' :: rest => readBase? 2 isBinary rest
    | _ => (readSpecial? (takeSign cs).2).or (readDecimal? cs)

end LoadRig.Toml
