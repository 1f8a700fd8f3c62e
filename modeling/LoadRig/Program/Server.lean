import LoadRig.Program.Arguments
import LoadRig.Program.Ending
/-!
# The service program

The program listens at an address until it is interrupted, which is a good end. An address can be
listened at if it belongs to this machine and nobody else listens there. Port zero stands for any
free port, so it is never taken.

## Main definitions

* `LoadRig.Net.SocketAddress.isLocal`, `LoadRig.Net.SocketAddress.overlaps`
* `LoadRig.BindError` — why an address cannot be listened at.
* `LoadRig.openServer` — the beginning of the program.
-/

namespace LoadRig

namespace Net.SocketAddress

/-- The port of an address. -/
def port : SocketAddress → Nat
  | v4 _ port => port.val
  | v6 _ _ port => port.val

/-- The host of an address, as four numbers where it stands for such an address. -/
def host : SocketAddress → Ipv4 ⊕ Ipv6
  | v4 a _ => .inl a
  | v6 a _ _ => match a.mapped? with
    | some q => .inl q
    | none => .inr a

/-- Whether an address stands for all addresses of the machine. -/
def isAny (a : SocketAddress) : Bool :=
  match a.host with
  | .inl q => q == .ofNat 0
  | .inr g => g.text == "::".toList

/-- Whether an address leads back to this machine, or stands for all of its addresses. -/
def isLocal (a : SocketAddress) : Bool :=
  a.isAny ||
    match a.host with
    | .inl q => q.first.val == 127
    | .inr g => g.text == "::1".toList

/-- Whether two addresses cannot be listened at both. -/
def overlaps (a b : SocketAddress) : Bool :=
  a.port != 0 && a.port == b.port && (a.isAny || b.isAny || decide (a.host = b.host))

end Net.SocketAddress

open LoadRig.Net

/-- Why an address cannot be listened at. -/
inductive BindError where
  | inUse
  | notAvailable
deriving DecidableEq, Repr

/-- The text of the reason, with the number of the operating system. -/
def BindError.message : BindError → String
  | inUse => "Address already in use (os error 98)"
  | notAvailable => "Cannot assign requested address (os error 99)"

/-- Why an address cannot be listened at while others listen at those in `taken`. -/
def bindFault? (taken : List SocketAddress) (a : SocketAddress) : Option BindError :=
  if !a.isLocal then some .notAvailable
  else if taken.any a.overlaps then some .inUse
  else none

/-- Begins to listen: the address, or the end of the program. -/
def openServer (words : List String) (taken : List SocketAddress) : Except Ending SocketAddress :=
  match ServerArguments.read words with
  | .error e => .error (.misused ServerArguments.program e)
  | .ok a =>
    match bindFault? taken a.bind with
    | none => .ok a.bind
    | some e => .error (.failed [] ["Failed to bind " ++ String.ofList a.bind.text, e.message])

/-- The end of the program when it is interrupted. -/
def closeServer : Ending := .good []

end LoadRig
