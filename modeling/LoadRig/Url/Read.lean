import LoadRig.Url.Basic
/-!
# Reading addresses

Addresses are read leniently: blanks around them and line breaks inside do not count, a backslash is
a slash, slashes behind the scheme may be missing or too many, dots in the path are carried out, and
what needs escaping is escaped. Addresses of schemes that are not well known are only checked; there
the rules are fewer.

## Main definitions

* `LoadRig.Url.Reading` — an address with a well-known scheme, or the scheme of another one.
* `LoadRig.Url.read` — reads a text.
* `LoadRig.Url.setScheme?`, `LoadRig.Url.setPath` — change one part of an address.
-/

namespace LoadRig.Url

open LoadRig.Text

/-- What a text was read as. -/
inductive Reading where
  | web (u : Url)
  | foreign (scheme : List Char)

/-! ### Parts -/

/-- Drops control characters and spaces at both ends, and tabs and line breaks anywhere. -/
def cleaned (cs : List Char) : List Char :=
  let isEdge (c : Char) : Bool := c.toNat ≤ 0x20
  (((cs.dropWhile isEdge).reverse.dropWhile isEdge).reverse).filter fun c =>
    c != '\t' && c != '\n' && c != '\r'

/-- Whether a character may stand in a scheme. -/
def isSchemeChar (c : Char) : Bool := c.isAlphanum || c == '+' || c == '-' || c == '.'

/-- Cuts off the scheme, which begins with a letter and ends with a colon, in small letters. -/
def takeScheme? (cs : List Char) : Option (List Char × List Char) :=
  if cs.head?.any Char.isAlpha then
    match cs.dropWhile isSchemeChar with
    | ':' :: rest => some ((cs.takeWhile isSchemeChar).map Char.toLower, rest)
    | _ => none
  else none

/-- Whether a character ends the part with the host. -/
def endsAuthority (c : Char) : Bool := c == '/' || c == '\\' || c == '?' || c == '#'

/-- Cuts a text at the last `@`, if it has one. -/
def cutUser? (cs : List Char) : Option (List Char × List Char) :=
  if cs.contains '@' then
    let behind := cs.reverse.takeWhile (· != '@')
    some (cs.take (cs.length - behind.length - 1), behind.reverse)
  else none

/-- Cuts off the host at the first colon that stands in no brackets. -/
def takeHost (inside : Bool) : List Char → List Char × List Char
  | [] => ([], [])
  | c :: cs =>
    if c == ':' && !inside then ([], c :: cs)
    else
      let (host, rest) := takeHost (c == '[' || (inside && c != ']')) cs
      (c :: host, rest)

/-- Reads a port behind its colon, which may be missing. The port that belongs to the scheme is not
kept. -/
def readPort (usual : Option Nat) (cs : List Char) : Except UrlError (Option Nat) :=
  match cs with
  | ':' :: ds =>
    if ds.all Char.isDigit && digitsValue ds < 65536 then
      .ok (if ds.isEmpty || usual == some (digitsValue ds) then none else some (digitsValue ds))
    else .error .badPort
  | _ => .ok none

/-- Cuts user name and password at the first colon. -/
def cutPassword (cs : List Char) : List Char × List Char :=
  (cs.takeWhile (· != ':'), (cs.dropWhile (· != ':')).drop 1)

/-! ### Paths -/

/-- A part of a path in small letters. -/
def small (part : List Char) : List Char := part.map Char.toLower

/-- Whether a part of a path stays where it is. -/
def isHere (part : List Char) : Bool :=
  [".".toList, "%2e".toList].contains (small part)

/-- Whether a part of a path goes one level up. -/
def isAbove (part : List Char) : Bool :=
  ["..".toList, "%2e.".toList, ".%2e".toList, "%2e%2e".toList].contains (small part)

/-- Whether a part of a path is a letter with a mark behind it that makes it a drive, which is
never left upwards. -/
def isDrive : List Char → Bool
  | [c, mark] => c.isAlpha && (mark == ':' || mark == '|')
  | _ => false

/-- Goes one level up from the parts so far, the nearest one first. -/
def goUp : List (List Char) → List (List Char)
  | [] => []
  | p :: ps => if isDrive p then p :: ps else ps

/-- Carries out the dots in a path. The last part leaves an empty one behind where it is made of
dots. -/
def walk : List (List Char) → List (List Char) → List (List Char)
  | above, [] => above.reverse
  | above, [last] =>
    if isAbove last then ([] :: goUp above).reverse
    else if isHere last then ([] :: above).reverse
    else (last :: above).reverse
  | above, p :: q :: ps =>
    if isAbove p then walk (goUp above) (q :: ps)
    else if isHere p then walk above (q :: ps)
    else walk (p :: above) (q :: ps)

/-- Reads a path. -/
def readPath (cs : List Char) : List (List Char) :=
  let isSlash (c : Char) : Bool := c == '/' || c == '\\'
  let cs := match cs with
    | c :: rest => if isSlash c then rest else c :: rest
    | [] => []
  walk [] ((fields isSlash cs).map (escape inPath))

/-- What stands behind the first of a mark, if there is one. -/
def behind? (mark : Char) (cs : List Char) : Option (List Char) :=
  match cs.dropWhile (· != mark) with
  | [] => none
  | _ :: rest => some rest

/-! ### Whole addresses -/

/-- Reads what follows the scheme of an address with a well-known scheme. -/
def readWeb (scheme : Scheme) (cs : List Char) (naming : Naming := .ascii) :
    Except UrlError Url := do
  let cs := cs.dropWhile fun c => c == '/' || c == '\\'
  let authority := cs.takeWhile fun c => !endsAuthority c
  let rest := cs.dropWhile fun c => !endsAuthority c
  let (userInfo, server) := (cutUser? authority).getD ([], authority)
  let (hostPart, portPart) := takeHost false server
  if hostPart.isEmpty then throw .emptyHost
  let host ← Host.parse hostPart naming
  let otherPort ← readPort (some scheme.defaultPort) portPart
  let (user, password) := cutPassword userInfo
  let fragment := behind? '#' rest
  let rest := rest.takeWhile (· != '#')
  let query := behind? '?' rest
  return { scheme, host, otherPort
           user := escape inUserInfo user
           password := escape inUserInfo password
           path := readPath (rest.takeWhile (· != '?'))
           query := query.map (escape inQuery)
           fragment := fragment.map (escape inFragment) }

/-- What is wrong behind the two slashes of an address with another scheme. -/
def foreignFault? (cs : List Char) : Option UrlError :=
  let isEnd (c : Char) : Bool := c == '/' || c == '?' || c == '#'
  let authority := cs.takeWhile fun c => !isEnd c
  let ended := (cs.dropWhile fun c => !isEnd c).isEmpty
  let (userInfo, server) := (cutUser? authority).getD ([], authority)
  let (hostPart, portPart) := takeHost false server
  if authority == ['@'] && !ended then some .emptyHost
  else
    match Host.foreignFault? hostPart with
    | some e => some e
    | none =>
      if hostPart.isEmpty && !portPart.isEmpty then some .emptyHost
      else
        match readPort none (portPart.takeWhile (· != '\\')) with
        | .error e => some e
        | .ok _ => if hostPart.isEmpty && userInfo.any (· != ':') then some .emptyHost else none

/-- What is wrong with the host of a file. -/
def fileFault? (cs : List Char) (naming : Naming := .ascii) : Option UrlError :=
  match cs with
  | a :: b :: rest =>
    if (a == '/' || a == '\\') && (b == '/' || b == '\\') then
      let host := rest.takeWhile fun c => !endsAuthority c
      if host.isEmpty || isDrive host then none
      else
        match Host.parse host naming with
        | .ok _ => none
        | .error e => some e
    else none
  | _ => none

/-- Reads an address. -/
def read (cs : List Char) (naming : Naming := .ascii) : Except UrlError Reading :=
  match takeScheme? (cleaned cs) with
  | none => .error .relative
  | some (name, rest) =>
    match Scheme.ofName? name with
    | some scheme => (readWeb scheme rest naming).map .web
    | none =>
      let fault := if name == "file".toList then fileFault? rest naming
        else
          match rest with
          | '/' :: '/' :: rest => foreignFault? rest
          | _ => none
      match fault with
      | some e => .error e
      | none => .ok (.foreign name)

/-! ### Changes -/

/-- The address with another scheme, which must be a well-known one as well. A port that belongs to
the new scheme is not kept. -/
def setScheme? (u : Url) (name : List Char) : Option Url := do
  let scheme ← Scheme.ofName? (name.map Char.toLower)
  return { u with
    scheme
    otherPort := u.otherPort.filter (· != scheme.defaultPort) }

/-- The address with another path; query and fragment stay. -/
def setPath (u : Url) (cs : List Char) : Url := { u with path := readPath cs }

end LoadRig.Url
