import LoadRig.Http.Status
/-!
# Answers of web servers

An answer is a line with the version and the status, lines with named fields, an empty line, and a
body. The text is read as bytes, one character for each; what is read so far decides whether the
answer is broken, complete, or still has to go on.

## Main definitions

* `LoadRig.Http.ResponseError` — what can be wrong; `LoadRig.Http.ResponseError.message` is its text.
* `LoadRig.Http.Response` — an answer; `LoadRig.Http.Response.read` reads it.
* `LoadRig.Http.Response.field?` — a field by its name.
-/

namespace LoadRig.Http

open LoadRig.Text

/-- What is wrong with an answer. -/
inductive ResponseError where
  | version
  | status
  | fieldName
  | fieldValue
  | newLine
  | tooManyFields
deriving DecidableEq, Repr

/-- The text of an error in an answer. -/
def ResponseError.message : ResponseError → String
  | version => "invalid HTTP version"
  | status => "invalid response status"
  | fieldName => "invalid header name"
  | fieldValue => "invalid header value"
  | newLine => "invalid new line"
  | tooManyFields => "too many headers"

/-- An answer. -/
structure Response where
  /-- Whether the version is the older one of the two that are known. -/
  isOld : Bool
  status : Nat
  fields : List (List Char × List Char)
  /-- Whatever stands behind the empty line. -/
  rest : List Char
deriving DecidableEq, Repr

/-- A reader: it finds an error, or that the text has to go on, or a value and the rest. -/
abbrev Reader (α : Type) := List Char → Except ResponseError (Option (α × List Char))

/-- The bytes of a text, each as a character. -/
def bytesOf (s : String) : List Char := s.toUTF8.toList.map fun b => Char.ofNat b.toNat

namespace Response

/-- Takes a line end: a line feed, with or without a carriage return before it. -/
def newLine (e : ResponseError) : Reader Unit
  | [] => .ok none
  | '\n' :: rest => .ok (some ((), rest))
  | ['\r'] => .ok none
  | '\r' :: '\n' :: rest => .ok (some ((), rest))
  | _ => .error e

/-- Drops empty lines. -/
def skipEmpty : List Char → Except ResponseError (Option (List Char))
  | '\n' :: rest => skipEmpty rest
  | ['\r'] => .ok none
  | '\r' :: '\n' :: rest => skipEmpty rest
  | '\r' :: _ => .error .newLine
  | rest => .ok (some rest)

/-- Reads the version, of which only the last digit varies, and the space behind it. -/
def readVersion : Reader Bool := fun cs =>
  let head := "HTTP/1.".toList
  if cs.length < 8 then
    if cs == head.take cs.length then .ok none else .error .version
  else if cs.take 7 != head then .error .version
  else
    match cs.drop 7 with
    | '0' :: [] => .ok none
    | '1' :: [] => .ok none
    | '0' :: ' ' :: rest => .ok (some (true, rest))
    | '1' :: ' ' :: rest => .ok (some (false, rest))
    | _ => .error .version

/-- Reads the number of the status. -/
def readStatus : Reader Nat := fun cs =>
  let ds := cs.take 3
  if !ds.all Char.isDigit then .error .status
  else if ds.length < 3 then .ok none
  else .ok (some (digitsValue ds, cs.drop 3))

/-- Whether a byte may stand in a phrase or in the value of a field. -/
def isValueByte (c : Char) : Bool := c == '\t' || (0x20 ≤ c.toNat && c.toNat != 0x7F)

/-- Reads the phrase, which may be missing together with the space before it. -/
def readPhrase : Reader Unit
  | [] => .ok none
  | ' ' :: rest => newLine .status (rest.dropWhile isValueByte)
  | cs => newLine .status cs

/-- Whether a byte may stand in the name of a field. -/
def isNameByte (c : Char) : Bool :=
  c.isAlphanum ||
    ['!', '#', '$', '%', '&', '\'', '*', '+', '-', '.', '^', '_', '\x60', '|', '~'].contains c

/-- Whether a byte is a blank. -/
def isBlankByte (c : Char) : Bool := c == ' ' || c == '\t'

/-- Reads one field with the end of its line. Blanks around the value do not belong to it. -/
def readField : Reader (List Char × List Char) := fun cs =>
  let name := cs.takeWhile isNameByte
  match cs.dropWhile isNameByte with
  | [] => .ok none
  | ':' :: rest =>
    if name.isEmpty then .error .fieldName
    else
      let value := (rest.dropWhile isBlankByte).takeWhile isValueByte
      (newLine .fieldValue (rest.dropWhile isValueByte)).map fun r => r.map fun (_, rest) =>
        ((name.map Char.toLower, (value.reverse.dropWhile isBlankByte).reverse), rest)
  | _ => .error .fieldName

/-- Reads fields up to an empty line, at most `room` of them. -/
def readFields : (room : Nat) → Reader (List (List Char × List Char))
  | _, [] => .ok none
  | room, c :: cs =>
    if c == '\r' || c == '\n' then
      (newLine .newLine (c :: cs)).map fun r => r.map fun (_, rest) => ([], rest)
    else
      match room with
      | 0 => .error .tooManyFields
      | room + 1 =>
        match readField (c :: cs) with
        | .error e => .error e
        | .ok none => .ok none
        | .ok (some (field, rest)) =>
          (readFields room rest).map fun r => r.map fun (fields, rest) => (field :: fields, rest)

/-- Reads an answer with at most `room` fields up to its body; nothing if the text has to go on. -/
def read (room : Nat) (cs : List Char) : Except ResponseError (Option Response) := do
  let some cs ← skipEmpty cs | return none
  let some (isOld, cs) ← readVersion cs | return none
  let some (status, cs) ← readStatus cs | return none
  let some ((), cs) ← readPhrase cs | return none
  let some (fields, rest) ← readFields room cs | return none
  return some { isOld, status, fields, rest }

/-- The value of the first field with a name in small letters. -/
def field? (r : Response) (name : String) : Option (List Char) :=
  (r.fields.find? (·.1 == name.toList)).map (·.2)

/-- Whether the first field with a name has a value, in whatever case. -/
def hasField (r : Response) (name value : String) : Bool :=
  (r.field? name).any (·.map Char.toLower == value.toList)

end Response

end LoadRig.Http
