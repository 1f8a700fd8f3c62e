import LoadRig.Link.Connection
import LoadRig.Link.Mock
/-!
# The stand-in that only breaks its links

Of all the ways in which the stand-in can be made to fail, one is left: it closes a link instead of an
acknowledgement as long as some failures are left, and acknowledges everything after that. What it
makes of a handshake and of a message is then decided by the failures that are left.

## Main definitions

* `LoadRig.MockService.Reliable` — a stand-in that fails by closing links and in no other way.
* `LoadRig.MockService.Answered` — what can have become of a message.

## Main results

* `LoadRig.MockService.Reliable.handshake` — every handshake is accepted.
* `LoadRig.MockService.send_of_droppedAcks`, `LoadRig.MockService.Reliable.send` — what becomes of a
  message.
* `LoadRig.MockService.Reliable.of_send` — a message leaves the stand-in as reliable as it was.
-/

namespace LoadRig

namespace MockService

variable {m : MockService} {timeout : Duration}

/-- A stand-in that accepts every handshake, and acknowledges in time what does not close its link. -/
structure Reliable (timeout : Duration) (m : MockService) : Prop where
  accepts : ∀ number, m.turnsAway number = false
  patient : m.failingConnects = 0
  acks : m.neverAck = false
  inTime : m.ackDelay.toNanos ≤ timeout.toNanos

/-- A handshake that was accepted. -/
def welcome (m : MockService) : MockService :=
  { m with handshakes := m.handshakes + 1, opened := m.opened + 1 }

/-- A message that was written to an open link. -/
def receive (m : MockService) : MockService := { m with sends := m.sends + 1 }

@[simp] theorem droppedAcks_welcome (m : MockService) : m.welcome.droppedAcks = m.droppedAcks := rfl

@[simp] theorem droppedAcks_receive (m : MockService) : m.receive.droppedAcks = m.droppedAcks := rfl

/-- The link is closed instead of an acknowledgement. -/
def breaks : Exchange := { after := 0, answer := .error .closed, linkOpen := false }

/-- The acknowledgement. -/
def acknowledges (m : MockService) : Exchange :=
  { after := m.ackDelay.toNanos, answer := .ok ack, linkOpen := true }

theorem Reliable.handshake (h : m.Reliable timeout) : m.handshake = (true, m.welcome) := by
  have haway : m.takeNumber.2.turnsAway m.takeNumber.1 = false := h.accepts _
  have htake : takeOne m.takeNumber.2.failingConnects = (false, 0) := by
    rw [show m.takeNumber.2.failingConnects = 0 from h.patient]
    rfl
  show m.takeNumber.2.judge m.takeNumber.1 = _
  rw [judge, haway, htake]
  rfl

/-- As long as failures are left, a message meets one of them. -/
theorem send_of_droppedAcks {k : Nat} (h : m.droppedAcks = k + 1) :
    m.send true timeout = (breaks, { m.receive with droppedAcks := k }) := by
  simp [send, takeOne, h, breaks, receive]

/-- After that it is acknowledged. -/
theorem Reliable.send (hm : m.Reliable timeout) (h : m.droppedAcks = 0) :
    m.send true timeout = (m.acknowledges, m.receive) := by
  have hlate : ¬ timeout.toNanos < m.ackDelay.toNanos := Nat.not_lt.mpr hm.inTime
  simp [MockService.send, takeOne, h, hm.acks, hlate, acknowledges, receive]

/-- What has become of a message: its link was closed, or it was acknowledged after the last
failure. -/
inductive Answered (m : MockService) (e : Exchange) : Prop
  | dropped (he : e = breaks)
  | acked (he : e.answer = .ok ack) (ho : e.linkOpen = true) (hd : m.droppedAcks = 0)

theorem Reliable.welcome (h : m.Reliable timeout) : m.welcome.Reliable timeout := { h with }

theorem Reliable.receive (h : m.Reliable timeout) : m.receive.Reliable timeout := { h with }

theorem Reliable.spend (h : m.Reliable timeout) (k : Nat) :
    ({ m.receive with droppedAcks := k } : MockService).Reliable timeout := { h with }

/-- What the stand-in makes of a message leaves it reliable. -/
theorem Reliable.of_send (hm : m.Reliable timeout) (linkOpen : Bool) :
    (m.send linkOpen timeout).2.Reliable timeout := by
  cases linkOpen with
  | false => exact hm
  | true =>
    cases hd : m.droppedAcks with
    | zero =>
      rw [hm.send hd]
      exact hm.receive
    | succ k =>
      rw [send_of_droppedAcks hd]
      exact hm.spend k

end MockService

/-! ### Connections that are open or not -/

theorem Connection.isOpen_settle_ok (c : Connection) (u : Unit) :
    (c.settle (.ok u)).isOpen = true := rfl

theorem Connection.isOpen_afterExchange_true {c : Connection} (h : c.isOpen = true) :
    (c.afterExchange true).isOpen = true := by
  rcases c with ⟨room, _ | l, recorded⟩
  · exact h
  · cases recorded <;> first | rfl | cases h

theorem Connection.isOpen_afterExchange_false (c : Connection) :
    (c.afterExchange false).isOpen = false := by
  rcases c with ⟨room, _ | l, recorded⟩ <;> rfl

end LoadRig
