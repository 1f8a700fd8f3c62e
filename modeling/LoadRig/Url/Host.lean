import LoadRig.Net.Ipv6
import LoadRig.Url.Escape
/-!
# Hosts in addresses

The host of an address is a name or a number. A name is written in small letters; what looks like a
number at its end makes it an address of four numbers, which may then be given in several loose
forms: fewer numbers, of which the last one fills the rest, and octal or hexadecimal ones. Between
brackets stands an address of eight groups.

A name is kept in ASCII. What the ASCII form of a name with other characters is, is not decided here:
it is for a `Naming` to say, and reading takes one. Where none is given, a name with other characters
in it counts as no name.

## Main definitions

* `LoadRig.UrlError` — what can be wrong with an address; `LoadRig.UrlError.message` is its text.
* `LoadRig.Url.Host` — a host; `LoadRig.Url.Host.text` is its text.
* `LoadRig.Url.Naming` — how names are brought into ASCII; `LoadRig.Url.Naming.ascii`.
* `LoadRig.Url.Host.parse` — reads a host of an address with a well-known scheme.
-/

namespace LoadRig

/-- What is wrong with an address. -/
inductive UrlError where
  | relative
  | emptyHost
  | badPort
  | badIpv4
  | badIpv6
  | badName
  | badCharacter
deriving DecidableEq, Repr

/-- The text of an error in an address. -/
def UrlError.message : UrlError → String
  | relative => "relative URL without a base"
  | emptyHost => "empty host"
  | badPort => "invalid port number"
  | badIpv4 => "invalid IPv4 address"
  | badIpv6 => "invalid IPv6 address"
  | badName => "invalid international domain name"
  | badCharacter => "invalid domain character"

namespace Url

open LoadRig.Text

/-- Whether a character may not stand in a name. -/
def isForbidden (c : Char) : Bool :=
  c.toNat ≤ 0x20 || 0x7F ≤ c.toNat ||
    ['%', '#', '/', ':', '<', '>', '?', '@', '[', '\\', ']', '^', '|'].contains c

/-- What gives the ASCII form of the name that some bytes make, if they make one. -/
abbrev Naming := List UInt8 → Option (List Char)

/-- Names that are ASCII already. They are written in small letters. A label that begins with `xn--` is
taken as it stands. What it spells has to be a label itself, by tables that are not kept here, and a
naming that has them refuses the name where it is not: so this one takes `xn--a`, which spells a control
character. -/
def Naming.ascii : Naming := fun bytes => do
  let name := (← asciiText? bytes).map Char.toLower
  if name.any isForbidden then none else some name

/-- A host. -/
inductive Host where
  | name (labels : List Char)
  | ipv4 (a : Net.Ipv4)
  | ipv6 (a : Net.Ipv6)
deriving DecidableEq, Repr

namespace Host

/-- The text of a host. -/
def text : Host → List Char
  | name s => s
  | ipv4 a => a.text
  | ipv6 a => '[' :: a.text ++ [']']

/-! ### Loose numbers -/

/-- Reads digits of a base; no digits make zero. -/
def readBase? (base : Nat) (cs : List Char) : Option Nat :=
  cs.foldlM (fun n c =>
    match hexValue? c with
    | some d => if d < base then some (base * n + d) else none
    | none => none) 0

/-- Reads a number: hexadecimal after `0x`, octal after another zero, else decimal. -/
def looseNumber? : List Char → Option Nat
  | [] => none
  | '0' :: 'x' :: rest => readBase? 16 rest
  | '0' :: 'X' :: rest => readBase? 16 rest
  | '0' :: c :: rest => readBase? 8 (c :: rest)
  | cs => readBase? 10 cs

/-- The parts of a name between points, without the empty one behind a last point. -/
def parts (cs : List Char) : List (List Char) :=
  let ps := fields (· == '.') cs
  if ps.getLast? = some [] then ps.dropLast else ps

/-- Whether the last part of a name is a number, or made of digits at least. -/
def endsInNumber (cs : List Char) : Bool :=
  match (parts cs).getLast? with
  | none => false
  | some last => (!last.isEmpty && last.all Char.isDigit) || (looseNumber? last).isSome

/-- Reads an address of one to four numbers; the last one fills what the others leave. -/
def looseIpv4? (cs : List Char) : Option Net.Ipv4 := do
  let ns ← (parts cs).mapM looseNumber?
  let last ← ns.getLast?
  let before := ns.dropLast
  if 3 < before.length || before.any (255 < ·) || Nat.pow 256 (4 - before.length) ≤ last then none
  let high := before.foldl (fun n x => 256 * n + x) 0
  return Net.Ipv4.ofNat (high * Nat.pow 256 (4 - before.length) + last)

/-! ### Reading -/

/-- Reads what stands between brackets. -/
def bracketed (cs : List Char) : Except UrlError Host :=
  if cs.getLast? = some ']' then
    match Net.Ipv6.parse? cs.dropLast with
    | some a => .ok (.ipv6 a)
    | none => .error .badIpv6
  else .error .badIpv6

/-- The host with a name in ASCII, which may be a number. -/
def ofName (s : List Char) : Except UrlError Host :=
  if s.isEmpty then .error .emptyHost
  else if endsInNumber s then
    match looseIpv4? s with
    | some a => .ok (.ipv4 a)
    | none => .error .badIpv4
  else .ok (.name s)

/-- Reads a host. -/
def parse (cs : List Char) (naming : Naming := .ascii) : Except UrlError Host :=
  match cs with
  | '[' :: rest => bracketed rest
  | _ =>
    match naming (unescape cs) with
    | none => .error .badName
    | some s => ofName s

/-- Whether a character may not stand in a host of another scheme. -/
def isForbiddenElsewhere (c : Char) : Bool :=
  ['\x00', '\t', '\n', '\r', ' ', '#', '/', ':', '<', '>', '?', '@', '[', '\\', ']', '^',
    '|'].contains c

/-- What is wrong with a host of another scheme, where names mean nothing. -/
def foreignFault? (cs : List Char) : Option UrlError :=
  match cs with
  | '[' :: rest =>
    match bracketed rest with
    | .ok _ => none
    | .error e => some e
  | _ => if cs.any isForbiddenElsewhere then some .badCharacter else none

end Host

end Url

end LoadRig
