import LoadRig.Toml.Scalar
/-!
# Reading TOML documents

A document is read line by line: blank lines and comments, headers, and keys with values. A value
may span several lines, where it is an array or a long string. The result is the tree of tables
with everything in its place, or nothing, where a rule of the format is broken; which rule it is is
not told.

Brackets in values, and parts in a key, may not be too many, so that no text can exhaust a reader.

## Main definitions

* `LoadRig.Toml.readKey?`, `LoadRig.Toml.readValue?` — the parts of a line.
* `LoadRig.Toml.parse?` — the tables of a document.
-/

namespace LoadRig.Toml

/-- The least number of nested brackets, or of parts in a key, that is too many. -/
def tooDeep : Nat := 80

/-! ### Keys -/

/-- Whether a character may stand in a key without quotes. -/
def isBare (c : Char) : Bool := c.isAlphanum || c == '-' || c == '_'

/-- Reads one part of a key. -/
def readPart? (cs : List Char) : Option (List Char × List Char) :=
  match cs with
  | '"' :: rest => readBasic? rest
  | '\'' :: rest => readLiteral? rest
  | _ =>
    let name := cs.takeWhile isBare
    if name.isEmpty then none else some (name, cs.dropWhile isBare)

/-- Reads the parts of a key with points between them, blanks around each included. -/
def readParts? : Nat → List Char → Option (List (List Char) × List Char)
  | 0, _ => none
  | fuel + 1, cs => do
    let (part, rest) ← readPart? (skipGap cs)
    match skipGap rest with
    | '.' :: rest =>
      let (parts, rest) ← readParts? fuel rest
      return (part :: parts, rest)
    | rest => return ([part], rest)

/-- Reads a key. -/
def readKey? (cs : List Char) : Option (List (List Char) × List Char) :=
  readParts? (tooDeep - 1) cs

/-! ### Values -/

/-- Drops a comment, up to the first character that may not stand in it. -/
def skipComment (cs : List Char) : List Char :=
  match cs with
  | '#' :: rest => rest.dropWhile isText
  | _ => cs

/-- Drops blanks, comments and line ends inside an array. A comment ends with its line. -/
def skipFiller : Nat → List Char → Option (List Char)
  | 0, _ => none
  | fuel + 1, cs =>
    match skipGap cs with
    | '#' :: rest =>
      match takeNewline? (rest.dropWhile isText) with
      | some rest => skipFiller fuel rest
      | none => none
    | rest =>
      match takeNewline? rest with
      | some rest => skipFiller fuel rest
      | none => some rest

mutual

/-- Reads a value inside `depth` brackets. -/
def readValue? (fuel depth : Nat) (cs : List Char) : Option (Item × List Char) :=
  match fuel with
  | 0 => none
  | fuel + 1 =>
    match cs with
    | '"' :: _ => (readString? cs).map fun (s, rest) => (.string s, rest)
    | '\'' :: _ => (readString? cs).map fun (s, rest) => (.string s, rest)
    | '[' :: rest =>
      if tooDeep ≤ depth + 1 then none
      else (readItems? fuel (depth + 1) rest).map fun (items, rest) => (.array items, rest)
    | '{' :: rest =>
      if tooDeep ≤ depth + 1 then none
      else
        match skipGap rest with
        | '}' :: rest => some (.inline [], rest)
        | rest =>
          (readPairs? fuel (depth + 1) [] rest).map fun (entries, rest) => (.inline entries, rest)
    | 't' :: 'r' :: 'u' :: 'e' :: rest => some (.boolean true, rest)
    | 'f' :: 'a' :: 'l' :: 's' :: 'e' :: rest => some (.boolean false, rest)
    | _ => readNumber? cs

/-- Reads the values of an array and its closing bracket; a comma may stand behind the last. -/
def readItems? (fuel depth : Nat) (cs : List Char) : Option (List Item × List Char) :=
  match fuel with
  | 0 => none
  | fuel + 1 => do
    let cs ← skipFiller (cs.length + 1) cs
    match cs with
    | ']' :: rest => some ([], rest)
    | _ =>
      let (item, rest) ← readValue? fuel depth cs
      let rest ← skipFiller (rest.length + 1) rest
      match rest with
      | ',' :: rest =>
        let (items, rest) ← readItems? fuel depth rest
        return (item :: items, rest)
      | ']' :: rest => return ([item], rest)
      | _ => none

/-- Reads the entries of an inline table that has at least one, and its closing brace. -/
def readPairs? (fuel depth : Nat) (entries : Entries) (cs : List Char) :
    Option (Entries × List Char) :=
  match fuel with
  | 0 => none
  | fuel + 1 => do
    let (path, rest) ← readKey? cs
    match rest with
    | '=' :: rest =>
      let (value, rest) ← readValue? fuel depth (skipGap rest)
      let entries ← addKey? path value entries
      match skipGap rest with
      | ',' :: rest => readPairs? fuel depth entries rest
      | '}' :: rest => return (entries, rest)
      | _ => none
    | _ => none

end

/-! ### Lines -/

/-- The tables read so far, and the parts of the header that the next line belongs to. -/
structure Progress where
  entries : Entries
  header : List (List Char)

/-- Takes the end of a line: blanks, a comment, and a line end or the end of the text. -/
def takeLineEnd? (cs : List Char) : Option (List Char) :=
  match skipComment (skipGap cs) with
  | [] => some []
  | rest => takeNewline? rest

/-- Reads the closing bracket, or brackets, of a header. -/
def takeBrackets? (double : Bool) (cs : List Char) : Option (List Char) :=
  match double, cs with
  | true, ']' :: ']' :: rest => some rest
  | false, ']' :: rest => some rest
  | _, _ => none

/-- Reads a header behind its opening bracket or brackets. -/
def readHeader? (double : Bool) (p : Progress) (cs : List Char) : Option (Progress × List Char) := do
  let (path, rest) ← readKey? cs
  let rest ← takeBrackets? double rest
  let rest ← takeLineEnd? rest
  let entries ← if double then openElement? path p.entries else openTable? path p.entries
  return ({ entries, header := path }, rest)

/-- Reads a key and its value. -/
def readPair? (p : Progress) (cs : List Char) : Option (Progress × List Char) := do
  let (path, rest) ← readKey? cs
  match rest with
  | '=' :: rest =>
    let (value, rest) ← readValue? (2 * rest.length + 2) 0 (skipGap rest)
    let rest ← takeLineEnd? rest
    let entries ← within? p.header (addKey? path value) p.entries
    return ({ p with entries }, rest)
  | _ => none

/-- Reads one line that is not at the end of the text. -/
def readLine? (p : Progress) (cs : List Char) : Option (Progress × List Char) :=
  match skipGap cs with
  | [] => some (p, [])
  | '[' :: '[' :: rest => readHeader? true p rest
  | '[' :: rest => readHeader? false p rest
  | rest =>
    match takeLineEnd? rest with
    | some rest => some (p, rest)
    | none => readPair? p rest

/-- Reads all lines, at most `fuel` of them. -/
def readLines? : Nat → Progress → List Char → Option Entries
  | _, p, [] => some p.entries
  | 0, _, _ :: _ => none
  | fuel + 1, p, c :: cs => do
    let (p, rest) ← readLine? p (c :: cs)
    readLines? fuel p rest

/-- The tables of a document. A byte order mark before it does not count. -/
def parse? (text : List Char) : Option Entries :=
  let text := match text with
    | '\ufeff' :: rest => rest
    | _ => text
  readLines? (text.length + 1) { entries := [], header := [] } text

end LoadRig.Toml
