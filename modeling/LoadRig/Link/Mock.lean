import LoadRig.Link.Error
import LoadRig.Link.Target
/-!
# The stand-in service

Runs can be tried out against a service inside the program, which acknowledges every message after a
fixed delay. It can be made to fail in several ways: to refuse every handshake or those after the
first few, to reject the next few, never to acknowledge, and to close a link instead of the first
few acknowledgements.

A handshake takes two steps, between which other handshakes may do the same: it takes a number, and
then it is admitted or not. The budget of rejected handshakes is spent only by a handshake that
nothing else turns away.

The counts of the service are words of sixty-four bits in use, and begin again from zero at `wideLimit`.
Here they have no limit, so what is said of them holds of fewer than `wideLimit` handshakes and messages.

## Main definitions

* `LoadRig.MockService` — the settings and the counts of the service.
* `LoadRig.MockService.takeNumber`, `LoadRig.MockService.judge` — the steps of a handshake.
* `LoadRig.MockService.handshake` — both steps.
* `LoadRig.MockService.send` — a message on a link.
-/

namespace LoadRig

/-- The settings of the stand-in and what it has seen so far. -/
structure MockService where
  ackDelay : Duration := .zero
  connectDelay : Duration := .zero
  neverAck : Bool := false
  refuse : Bool := false
  acceptLimit : Option Nat := none
  /-- Handshakes that took a number. -/
  handshakes : Nat := 0
  /-- Handshakes that are still to be rejected. -/
  failingConnects : Nat := 0
  /-- Messages that are still to close their link. -/
  droppedAcks : Nat := 0
  /-- Links that were opened. -/
  opened : Nat := 0
  /-- Messages that were written to an open link. -/
  sends : Nat := 0
deriving DecidableEq, Repr, Inhabited

/-- What becomes of a message on a link: an answer after some time, and whether the link is open
then. -/
structure Exchange where
  /-- The time until the answer, in nanoseconds. -/
  after : Nat
  answer : Except SendError String
  linkOpen : Bool

namespace MockService

/-- The acknowledgement of the stand-in. -/
def ack : String := "\x7b\"status\":\"OK\"\x7d"

/-- Why the stand-in rejects a handshake. -/
def refusal : String := "mock refused handshake"

/-- Spends one of a budget, if something is left of it. -/
def takeOne (budget : Nat) : Bool × Nat := if 0 < budget then (true, budget - 1) else (false, 0)

/-- A handshake arrives and takes a number, counted from zero. It is the number in use as long as it is
below `wideLimit`; there the numbers in use begin again from zero. -/
def takeNumber (m : MockService) : Nat × MockService :=
  (m.handshakes, { m with handshakes := m.handshakes + 1 })

/-- Whether a handshake with a number is turned away without touching the budget. -/
def turnsAway (m : MockService) (number : Nat) : Bool :=
  m.refuse || m.acceptLimit.any (· ≤ number)

/-- Decides a handshake with a number. -/
def judge (m : MockService) (number : Nat) : Bool × MockService :=
  if m.turnsAway number then (false, m)
  else
    match takeOne m.failingConnects with
    | (true, left) => (false, { m with failingConnects := left })
    | (false, _) => (true, { m with opened := m.opened + 1 })

/-- A handshake without another one in between. -/
def handshake (m : MockService) : Bool × MockService :=
  let (number, m) := m.takeNumber
  m.judge number

/-- A message on a link that is open or not. -/
def send (m : MockService) (linkOpen : Bool) (timeout : Duration) : Exchange × MockService :=
  if !linkOpen then ({ after := 0, answer := .error .closed, linkOpen := false }, m)
  else
    let m := { m with sends := m.sends + 1 }
    match takeOne m.droppedAcks with
    | (true, left) =>
      ({ after := 0, answer := .error .closed, linkOpen := false }, { m with droppedAcks := left })
    | (false, _) =>
      if m.neverAck || timeout.toNanos < m.ackDelay.toNanos then
        ({ after := timeout.toNanos, answer := .error (.ackTimeout timeout), linkOpen := true }, m)
      else ({ after := m.ackDelay.toNanos, answer := .ok ack, linkOpen := true }, m)

end MockService

end LoadRig
