import LoadRig.Json.Quoted
/-!
# The grammar of JSON texts

A text is read into a tree that keeps every literal as it stands: a number as its digits, a string
as its pieces, an object as its members in order with repetitions. Which numbers are in range,
which strings name characters and which of two equal members counts is decided later, by whoever
looks at that part of the tree; a part that nobody looks at only has to follow the grammar.

Blanks between tokens are the space, the tab, the line feed and the carriage return, and no other
character. The reader takes a bound on the number of its steps, which the wrapper `Tree.parse?`
sets to the length of the text; every step uses up a character, so the bound is never felt.

## Main definitions

* `LoadRig.Json.Numeral` — a number literal.
* `LoadRig.Json.Tree` — a JSON text as it was written.
* `LoadRig.Json.Tree.parse?` — reads a text that is one value with blanks around it.
-/

namespace LoadRig.Json

/-- A number literal: sign, digits before the point, digits after it, and the exponent. -/
structure Numeral where
  negative : Bool
  whole : List Char
  fraction : Option (List Char)
  exponent : Option Int
deriving DecidableEq, Repr

/-- A JSON text as it was written. -/
inductive Tree where
  | null
  | bool (b : Bool)
  | number (n : Numeral)
  | string (pieces : List Piece)
  | array (items : List Tree)
  | object (members : List (List Piece × Tree))
deriving Repr

/-- Whether a character may stand between tokens. -/
def isSpace (c : Char) : Bool := c == ' ' || c == '\t' || c == '\n' || c == '\r'

/-- Drops blanks. -/
def skipSpace (cs : List Char) : List Char := cs.dropWhile isSpace

/-- Removes a given text from the front. -/
def dropText? : List Char → List Char → Option (List Char)
  | [], cs => some cs
  | _ :: _, [] => none
  | t :: ts, c :: cs => if t == c then dropText? ts cs else none

/-! ### Numbers -/

/-- The digits before the point: a lone zero, or digits that do not begin with zero. -/
def readWhole? (cs : List Char) : Option (List Char × List Char) :=
  match cs with
  | '0' :: rest => if (rest.head?.any Char.isDigit) then none else some (['0'], rest)
  | _ =>
    let ds := cs.takeWhile Char.isDigit
    if ds.isEmpty then none else some (ds, cs.dropWhile Char.isDigit)

/-- The digits after the point, if there is one. -/
def readFraction? (cs : List Char) : Option (Option (List Char) × List Char) :=
  match cs with
  | '.' :: rest =>
    let ds := rest.takeWhile Char.isDigit
    if ds.isEmpty then none else some (some ds, rest.dropWhile Char.isDigit)
  | _ => some (none, cs)

/-- The digits of an exponent behind its letter and sign. -/
def readExponentDigits? (negative : Bool) (cs : List Char) : Option (Option Int × List Char) :=
  let ds := cs.takeWhile Char.isDigit
  if ds.isEmpty then none
  else
    let e : Int := Text.digitsValue ds
    some (some (if negative then -e else e), cs.dropWhile Char.isDigit)

/-- The exponent, if there is one. -/
def readExponent? (cs : List Char) : Option (Option Int × List Char) :=
  match cs with
  | c :: rest =>
    if c == 'e' || c == 'E' then
      match rest with
      | '-' :: rest => readExponentDigits? true rest
      | '+' :: rest => readExponentDigits? false rest
      | _ => readExponentDigits? false rest
    else some (none, cs)
  | [] => some (none, cs)

/-- A number literal. -/
def readNumeral? (cs : List Char) : Option (Numeral × List Char) := do
  let (negative, cs) := match cs with
    | '-' :: rest => (true, rest)
    | _ => (false, cs)
  let (whole, cs) ← readWhole? cs
  let (fraction, cs) ← readFraction? cs
  let (exponent, cs) ← readExponent? cs
  return ({ negative, whole, fraction, exponent }, cs)

/-! ### Values -/

mutual

/-- Reads one value, blanks before it included. -/
def Tree.read? : Nat → List Char → Option (Tree × List Char)
  | 0, _ => none
  | fuel + 1, cs =>
    match skipSpace cs with
    | [] => none
    | '"' :: rest => do
      let (pieces, rest) ← readPieces? rest
      return (.string pieces, rest)
    | '[' :: rest =>
      match skipSpace rest with
      | ']' :: rest => some (.array [], rest)
      | rest => do
        let (items, rest) ← Tree.readItems? fuel rest
        return (.array items, rest)
    | '{' :: rest =>
      match skipSpace rest with
      | '}' :: rest => some (.object [], rest)
      | rest => do
        let (members, rest) ← Tree.readMembers? fuel rest
        return (.object members, rest)
    | 'n' :: rest => (dropText? ['u', 'l', 'l'] rest).map (Tree.null, ·)
    | 't' :: rest => (dropText? ['r', 'u', 'e'] rest).map (Tree.bool true, ·)
    | 'f' :: rest => (dropText? ['a', 'l', 's', 'e'] rest).map (Tree.bool false, ·)
    | rest => (readNumeral? rest).map fun (n, rest) => (.number n, rest)

/-- Reads the values of an array that has at least one, and its closing bracket. -/
def Tree.readItems? : Nat → List Char → Option (List Tree × List Char)
  | 0, _ => none
  | fuel + 1, cs => do
    let (item, rest) ← Tree.read? fuel cs
    match skipSpace rest with
    | ']' :: rest => return ([item], rest)
    | ',' :: rest =>
      let (items, rest) ← Tree.readItems? fuel rest
      return (item :: items, rest)
    | _ => none

/-- Reads the members of an object that has at least one, and its closing brace. -/
def Tree.readMembers? : Nat → List Char → Option (List (List Piece × Tree) × List Char)
  | 0, _ => none
  | fuel + 1, cs =>
    match skipSpace cs with
    | '"' :: rest => do
      let (name, rest) ← readPieces? rest
      match skipSpace rest with
      | ':' :: rest =>
        let (value, rest) ← Tree.read? fuel rest
        match skipSpace rest with
        | '}' :: rest => return ([(name, value)], rest)
        | ',' :: rest =>
          let (members, rest) ← Tree.readMembers? fuel rest
          return ((name, value) :: members, rest)
        | _ => none
      | _ => none
    | _ => none

end

/-- Reads a text that is one value and blanks around it. -/
def Tree.parse? (cs : List Char) : Option Tree :=
  match Tree.read? (cs.length + 1) cs with
  | some (t, rest) => if (skipSpace rest).isEmpty then some t else none
  | none => none

end LoadRig.Json
