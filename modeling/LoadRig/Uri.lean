import LoadRig.Text.Digits
/-!
# Addresses read strictly

What dials a socket reads its address more strictly than `LoadRig.Url.read` does: nothing is mended,
so a character that should have been escaped is an error, and the parts are kept as they were
written. An address without a scheme is a path, or a host alone.

## Main definitions

* `LoadRig.UriError` — what can be wrong; `LoadRig.UriError.message` is its text.
* `LoadRig.Uri` — an address; `LoadRig.Uri.parse` reads it.
* `LoadRig.Uri.port?` — the port that it names.
-/

namespace LoadRig

open LoadRig.Text

/-- What is wrong with an address. -/
inductive UriError where
  | character
  | authority
  | format
  | schemeTooLong
  | tooLong
  | empty
deriving DecidableEq, Repr

/-- The text of an error in an address. -/
def UriError.message : UriError → String
  | character => "invalid uri character"
  | authority => "invalid authority"
  | format => "invalid format"
  | schemeTooLong => "scheme too long"
  | tooLong => "uri too long"
  | empty => "empty string"

/-- An address; `path` has everything behind the host, a query included, up to a fragment. -/
structure Uri where
  scheme : Option (List Char)
  authority : Option (List Char)
  path : List Char
deriving DecidableEq, Repr

namespace Uri

/-- The greatest number of bytes in an address. -/
def longest : Nat := 65534

/-- The greatest number of characters in a scheme. -/
def longestScheme : Nat := 64

/-! ### Schemes -/

/-- Whether a character may stand in a scheme. -/
def isSchemeChar (c : Char) : Bool := c.isAlphanum || ['+', '-', '.', '~'].contains c

/-- Cuts off the scheme with the colon and the two slashes behind it, if there is one. -/
def takeScheme (cs : List Char) : Except UriError (Option (List Char) × List Char) :=
  match cs.dropWhile isSchemeChar with
  | ':' :: '/' :: '/' :: rest =>
    let name := cs.takeWhile isSchemeChar
    let small := name.map Char.toLower
    if small == "http".toList || small == "https".toList then .ok (some small, rest)
    else if longestScheme < name.length then .error .schemeTooLong
    else if cs.length ≤ 3 then .ok (none, cs)
    else .ok (some name, rest)
  | _ => .ok (none, cs)

/-! ### Hosts -/

/-- Whether a character may stand in an address at all; the percent sign is counted apart. -/
def isUriChar (c : Char) : Bool :=
  c.isAlphanum ||
    ['!', '#', '$', '&', '\'', '(', ')', '*', '+', ',', '-', '.', '/', ':', ';', '=', '?', '@', '[',
      ']', '_', '~'].contains c

/-- Whether a character ends the part with the host. -/
def endsAuthority (c : Char) : Bool := c == '/' || c == '?' || c == '#'

/-- What has been seen of the part with the host. -/
structure Scan where
  colons : Nat := 0
  opened : Bool := false
  closed : Bool := false
  percent : Bool := false
  lastIsAt : Bool := false

/-- The greatest number of colons before a bracket or an `@`. -/
def mostColons : Nat := 8

/-- Looks at one character of the part with the host. Colons and percent signs before a closing
bracket or an `@` are forgotten. -/
def Scan.step (s : Scan) (c : Char) : Except UriError Scan :=
  let s := { s with lastIsAt := false }
  if c == ':' then
    if mostColons ≤ s.colons then .error .authority else .ok { s with colons := s.colons + 1 }
  else if c == '[' then
    if s.percent || s.opened then .error .authority else .ok { s with opened := true }
  else if c == ']' then
    if !s.opened || s.closed then .error .authority
    else .ok { s with closed := true, colons := 0, percent := false }
  else if c == '@' then .ok { s with colons := 0, percent := false, lastIsAt := true }
  else if c == '%' then .ok { s with percent := true }
  else if isUriChar c then .ok s
  else .error .character

/-- Checks the part with the host. -/
def checkAuthority (cs : List Char) : Except UriError Unit := do
  let s ← cs.foldlM Scan.step {}
  if s.opened != s.closed || 1 < s.colons || s.lastIsAt || s.percent then .error .authority
  else .ok ()

/-! ### Paths -/

/-- Whether a character may stand in a path. -/
def isPathChar (c : Char) : Bool :=
  0x21 ≤ c.toNat && !(['#', '<', '>', '?', '\x60'].contains c)

/-- Whether a character may stand in a query. -/
def isQueryChar (c : Char) : Bool :=
  0x21 ≤ c.toNat && !(['"', '#', '<', '>'].contains c)

/-- Checks a path with its query, and drops a fragment. -/
def checkPath (cs : List Char) : Except UriError (List Char) :=
  let path := cs.takeWhile isPathChar
  match cs.dropWhile isPathChar with
  | [] => .ok path
  | '#' :: _ => .ok path
  | '?' :: rest =>
    let query := rest.takeWhile isQueryChar
    match rest.dropWhile isQueryChar with
    | [] => .ok (path ++ '?' :: query)
    | '#' :: _ => .ok (path ++ '?' :: query)
    | _ => .error .character
  | _ => .error .character

/-! ### Whole addresses -/

/-- Reads an address. -/
def parse (cs : List Char) : Except UriError Uri :=
  if longest < (String.ofList cs).utf8ByteSize then .error .tooLong
  else
    match cs with
    | [] => .error .empty
    | '/' :: _ => do return { scheme := none, authority := none, path := ← checkPath cs }
    | _ => do
      let (scheme, rest) ← takeScheme cs
      let authority := rest.takeWhile fun c => !endsAuthority c
      let behind := rest.dropWhile fun c => !endsAuthority c
      checkAuthority authority
      if scheme.isNone then
        if behind.isEmpty then return { scheme, authority := some authority, path := [] }
        else throw .format
      else if authority.isEmpty then throw .format
      else return { scheme, authority := some authority, path := ← checkPath behind }

/-- The number behind the last colon of the host, if it is a port. -/
def port? (u : Uri) : Option Nat := do
  let authority ← u.authority
  if authority.contains ':' then
    let n ← readDigits? (authority.reverse.takeWhile (· != ':')).reverse
    if n < 65536 then some n else none
  else none

end Uri

end LoadRig
