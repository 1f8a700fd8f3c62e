import LoadRig.Proofs.Link.Mock
/-!
# The calls of the stand-in in pieces

A handshake and a message touch what the clients of the stand-in share more than once. A handshake
that has its number is first turned away or not, where it may spend one of the budget of rejected
handshakes, and is counted as a link only after that. A message is counted as written before it spends
one of the budget of dropped acknowledgements. In one piece they are what `MockService.judge` and
`MockService.send` say.

## Main definitions

* `LoadRig.MockService.screen`, `LoadRig.MockService.accept` — the pieces of a handshake.
* `LoadRig.MockService.charge` — what is decided about a message that was written.
* `LoadRig.MockService.within` — how many of the first handshakes nothing turns away.

## Main results

* `LoadRig.MockService.judge_eq`, `LoadRig.MockService.send_true` — the calls are their pieces.
* `LoadRig.MockService.countP_range` — the handshakes that nothing turns away, counted.
-/

namespace LoadRig

namespace MockService

/-- Whether a handshake with a number gets past what may turn it away and past the budget. -/
def screen (m : MockService) (number : Nat) : Bool × MockService :=
  if m.turnsAway number then (false, m)
  else
    match takeOne m.failingConnects with
    | (true, left) => (false, { m with failingConnects := left })
    | (false, _) => (true, m)

/-- A handshake that got past is counted as a link. -/
def accept (m : MockService) : MockService := { m with opened := m.opened + 1 }

/-- Whether a message that was written is dropped. -/
def charge (m : MockService) : Bool × MockService :=
  match takeOne m.droppedAcks with
  | (true, left) => (true, { m with droppedAcks := left })
  | (false, _) => (false, m)

/-- What becomes of a message that is not dropped. -/
def answers (m : MockService) (timeout : Duration) : Exchange :=
  if m.neverAck || timeout.toNanos < m.ackDelay.toNanos then
    { after := timeout.toNanos, answer := .error (.ackTimeout timeout), linkOpen := true }
  else m.acknowledges

theorem charge_eq (m : MockService) :
    m.charge = (m.droppedAcks != 0, { m with droppedAcks := m.droppedAcks - 1 }) := by
  rcases m with ⟨_, _, _, _, _, _, _, _ | left, _, _⟩ <;> rfl

/-- A handshake is decided and then counted. -/
theorem judge_eq (m : MockService) (number : Nat) :
    m.judge number = ((m.screen number).1,
      if (m.screen number).1 then (m.screen number).2.accept else (m.screen number).2) := by
  rw [judge, screen]
  cases m.turnsAway number with
  | true => rfl
  | false => rcases takeOne m.failingConnects with ⟨_ | _, left⟩ <;> rfl

/-- A message on an open link is written and then decided. -/
theorem send_true (m : MockService) (timeout : Duration) :
    m.send true timeout = (if m.receive.charge.1 then breaks else m.answers timeout,
      m.receive.charge.2) := by
  rw [charge_eq, droppedAcks_receive]
  cases hd : m.droppedAcks with
  | succ k => exact send_of_droppedAcks hd
  | zero =>
    have hm : ({ m.receive with droppedAcks := 0 - 1 } : MockService) = m.receive := by
      simp [receive, hd]
    have htake : takeOne m.droppedAcks = (false, 0) := by rw [hd]; rfl
    rw [hm, answers]
    simp only [send, Bool.not_true, Bool.false_eq_true, if_false, htake]
    split <;> rfl

theorem linkOpen_answers (m : MockService) (timeout : Duration) :
    (m.answers timeout).linkOpen = true := by
  rw [answers]
  split <;> rfl

/-- How many of the first `n` handshakes nothing turns away. -/
def within (m : MockService) (n : Nat) : Nat :=
  if m.refuse then 0 else m.acceptLimit.elim n (min n)

theorem turnsAway_eq_false_iff {m : MockService} {number : Nat} :
    m.turnsAway number = false ↔ m.refuse = false ∧ ∀ limit ∈ m.acceptLimit, number < limit := by
  rw [turnsAway, Bool.or_eq_false_iff]
  cases m.acceptLimit with
  | none => simp
  | some limit => simp [Option.any]

theorem within_succ (m : MockService) (n : Nat) :
    m.within (n + 1) = m.within n + if m.turnsAway n then 0 else 1 := by
  cases hr : m.refuse with
  | true => simp [within, turnsAway, hr]
  | false =>
    cases hl : m.acceptLimit with
    | none => simp [within, turnsAway, hr, hl]
    | some limit =>
      simp only [within, turnsAway, hr, hl, Option.elim, Option.any, Bool.false_or,
        decide_eq_true_eq, Bool.false_eq_true, if_false]
      split <;> omega

/-- Before a handshake that nothing turns away there is none that anything turns away. -/
theorem within_of_turnsAway_eq_false {m : MockService} {n : Nat} (h : m.turnsAway n = false) :
    m.within n = n := by
  obtain ⟨hrefuse, hlimit⟩ := turnsAway_eq_false_iff.mp h
  rw [within, hrefuse, if_neg Bool.false_ne_true]
  cases hl : m.acceptLimit with
  | none => rfl
  | some limit => exact Nat.min_eq_left (Nat.le_of_lt (hlimit limit hl))

theorem countP_range (m : MockService) (n : Nat) :
    (List.range n).countP (fun i => !m.turnsAway i) = m.within n := by
  induction n with
  | zero => cases hl : m.acceptLimit <;> simp [within, hl]
  | succ n ih =>
    rw [List.range_succ, List.countP_append, ih, List.countP_singleton, within_succ]
    cases m.turnsAway n <;> rfl

end MockService

end LoadRig
