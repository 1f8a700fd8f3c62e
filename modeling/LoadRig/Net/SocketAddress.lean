import LoadRig.Net.Ipv6
import LoadRig.Word
/-!
# Addresses to listen at

A service listens at an address and a port. An address of eight groups stands in brackets and may
name a zone of the machine behind a percent sign; zone zero is the same as none. One that stands for
an address of four numbers shows those.

## Main definitions

* `LoadRig.Net.SocketAddress` — an address with a port; `LoadRig.Net.SocketAddress.text` is its text.
* `LoadRig.Net.SocketAddress.parse?` — reads a text.
-/

namespace LoadRig.Net

open LoadRig.Text

/-- An address with a port. -/
inductive SocketAddress where
  | v4 (address : Ipv4) (port : Fin 65536)
  | v6 (address : Ipv6) (zone : Nat) (port : Fin 65536)
deriving DecidableEq, Repr

namespace SocketAddress

/-- An address of eight groups; the last two as four numbers where it stands for such an address. -/
def groupsText (a : Ipv6) : List Char :=
  match a.mapped? with
  | some q => "::ffff:".toList ++ q.text
  | none => a.text

/-- The text of an address with its port. -/
def text : SocketAddress → List Char
  | v4 a port => a.text ++ ':' :: digits port.val
  | v6 a zone port =>
    '[' :: groupsText a ++ (if zone = 0 then [] else '%' :: digits zone) ++
      ']' :: ':' :: digits port.val

/-- Reads a port, with leading zeros perhaps. -/
def port? (cs : List Char) : Option (Fin 65536) := do
  let n ← readDigits? cs
  if h : n < 65536 then some ⟨n, h⟩ else none

/-- Reads the number of a zone. -/
def zone? (cs : List Char) : Option Nat := do
  let n ← readDigits? cs
  if n < narrowLimit then some n else none

/-- Reads an address with its port. -/
def parse? (cs : List Char) : Option SocketAddress :=
  match cs with
  | '[' :: rest =>
    let inner := rest.takeWhile (· != ']')
    match rest.dropWhile (· != ']') with
    | ']' :: ':' :: behind => do
      let address ← Ipv6.parse? (inner.takeWhile (· != '%'))
      let zone ← match inner.dropWhile (· != '%') with
        | [] => some 0
        | _ :: ds => zone? ds
      return .v6 address zone (← port? behind)
    | _ => none
  | _ => do
    let address ← Ipv4.parse? (cs.takeWhile (· != ':'))
    match cs.dropWhile (· != ':') with
    | _ :: ds => return .v4 address (← port? ds)
    | [] => none

end SocketAddress

end LoadRig.Net
