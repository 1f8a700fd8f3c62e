import LoadRig.Proofs.Outage.Course
/-!
# The books of an outage

A sender that is alone with the stand-in uses up its failures one by one: every message that is
written while some are left meets one of them and finds its link closed. A message is given up when it
has met as many failures as attempts are allowed, and the first message that is acknowledged ends the
outage for all. What is left of the failures, what the messages that were given up have met, and what
the message in the hand has met are all of them together.

Every failure is repaired once, by whatever is tried next. `Outage.owed` is the failure that was met
and whose repair has not begun, of which there is never more than one. At the end it is the one that
ended the last message, if that was given up.

## Main definitions

* `LoadRig.Outage.owed`, `LoadRig.Sender.opening` — what the counters of connections lack.
* `LoadRig.Outage.Connected` — where the connection is open.
* `LoadRig.Outage.Books` — failures, messages, repairs and connections against each other.

## Main results

* `LoadRig.Outage.books_goOn`, `LoadRig.Outage.books_sending` — the books between two messages and at
  the beginning of an attempt.
* `LoadRig.Outage.books_step` — every move keeps the books.
-/

namespace LoadRig

/-! ### A sender and its connection -/

namespace Sender

variable {settings : RetrySettings} {sh : Shared} {s : Sender}

theorem withLine_settle_ok (sh : Shared) (s : Sender) (u : Unit) :
    s.withLine sh ((s.line sh).settle (.ok u))
      = ({ sh with counters := sh.counters.addConnection },
        { s with connection := s.connection.settle (.ok u) }) := rfl

/-- A message that is tried from now on. -/
def freshTrial (item : WorkItem) (sh : Shared) : Trial :=
  { item, began := sh.now, sentAt := sh.worldMillis, retry := { attempt := 0, stage := .sending } }

/-- On an open connection a message is written at once. -/
theorem tryItem_of_isOpen {s : Sender} (hK : 1 ≤ settings.maxAttempts)
    (h : s.connection.isOpen = true) (item : WorkItem) (sh : Shared) :
    tryItem settings item sh s = (sh, { s with stage := .trying (freshTrial item sh) }) := by
  have hopen : (s.line sh).connection.isOpen = true := h
  have hstart : Retry.start settings (s.line sh)
      = (s.line sh, .going { attempt := 0, stage := .sending }) := by
    rw [Retry.start, if_neg (by omega), Retry.attempting, if_pos hopen]
  simp only [tryItem, hstart]
  rfl

theorem accept_of_isOpen (hK : 1 ≤ settings.maxAttempts) (h : s.connection.isOpen = true)
    (item : WorkItem) (sh : Shared) :
    accept settings item sh s
      = (sh, { s with processed := s.processed + 1, stage := .trying (freshTrial item sh) }) := by
  simp only [accept]
  rw [if_pos h]
  exact tryItem_of_isOpen (s := { s with processed := s.processed + 1 }) hK h item sh

theorem accept_of_not_isOpen (h : s.connection.isOpen = false) (item : WorkItem) (sh : Shared) :
    accept settings item sh s
      = ({ sh with counters := sh.counters.addReconnection },
        { s with processed := s.processed + 1, connection := s.connection.redial
                 stage := .repairing item }) := by
  simp only [accept]
  rw [if_neg (by simp [h])]
  rfl

/-- After a message a sender waits for the next one, or is done with its work. -/
theorem goOn_cases (s : Sender) :
    s.goOn = { s with stage := .waiting } ∨ s.goOn = { s with stage := .closing .quotaReached } := by
  rw [goOn]
  split
  · exact .inl rfl
  · exact .inr rfl

theorem exists_trial_of_isSending (h : s.isSending = true) :
    ∃ t, s.stage = .trying t ∧ t.retry.stage = .sending := by
  cases hs : s.stage with
  | trying t =>
    cases ht : t.retry.stage with
    | sending => exact ⟨t, rfl, ht⟩
    | dialing | resting => simp [isSending, Retry.isSending, hs, ht] at h
  | dialing | waiting | repairing | closing | left | crashed => simp [isSending, hs] at h

/-- One while a connection is being opened. -/
def opening (s : Sender) : Nat :=
  match s.stage with
  | .dialing | .repairing _ => 1
  | .trying t =>
    match t.retry.stage with
    | .dialing => 1
    | .sending | .resting _ _ => 0
  | .waiting | .closing _ | .left _ | .crashed => 0

end Sender

/-! ### What is kept -/

namespace Outage

/-- One for a failure that the message in the hand has met, but that the sender does not know of. -/
def dropped (c : Outage) : Nat :=
  match c.answer with
  | some e => (!e.linkOpen).toNat
  | none => 0

/-- One for an acknowledgement that the sender has not got yet. -/
def acked (c : Outage) : Nat :=
  match c.answer with
  | some e => e.linkOpen.toNat
  | none => 0

/-- One for a failure whose repair has not begun. -/
def owed (c : Outage) : Nat :=
  match c.sender.stage with
  | .waiting | .closing _ | .left _ =>
    if c.sender.succeeded = 0 ∧ 0 < c.sender.failed then 1 else 0
  | .trying t =>
    match t.retry.stage with
    | .dialing => 0
    | .sending => c.dropped
    | .resting _ _ => 1
  | .dialing | .repairing _ | .crashed => 0

variable {settings : RetrySettings} {c c' : Outage} {m : OutageMove}
  {N D sends : Nat}

/-- Whether the connection is as the sender needs it. While it waits for a message, the connection is
open unless the last message was given up. -/
def Connected (c : Outage) : Prop :=
  match c.sender.stage with
  | .waiting =>
    c.sender.connection.isOpen = true ↔ ¬ (c.sender.succeeded = 0 ∧ 0 < c.sender.failed)
  | .trying t =>
    match t.retry.stage with
    | .dialing => True
    | .sending => c.sender.connection.isOpen = true
    | .resting _ _ => c.sender.connection.isOpen = false
  | .dialing | .repairing _ | .closing _ | .left _ | .crashed => True

/-- The books of an outage of `D` failures, where `K` attempts are allowed and `sends` messages were
written before. -/
structure Books (K D sends : Nat) (c : Outage) : Prop where
  /-- Up to the first acknowledgement, every failure is left or was met by a message. -/
  spent : c.sender.succeeded = 0 →
    c.mock.droppedAcks + c.sender.failed * K + c.sender.tries + c.dropped = D
  healed : 0 < c.sender.succeeded →
    c.mock.droppedAcks = 0 ∧ c.sender.failed = D / K ∧ c.dropped = 0
  sends_eq : c.mock.sends + c.mock.droppedAcks = sends + c.sender.succeeded + D + c.acked
  repairs : c.shared.counters.reconnections + c.owed + c.mock.droppedAcks = D
  connections : c.shared.counters.connections + c.sender.opening
    = c.shared.counters.reconnections + 1
  answered : ∀ e, c.answer = some e → c.sender.isSending = true ∧ c.mock.Answered e
  connected : c.Connected

/-! ### Moves -/

variable {K : Nat} {sh : Shared} {s : Sender} {mock : MockService} {y : Shared × Sender}

/-- The books at the beginning. -/
theorem books_start (K : Nat) (epoch : Int) (capacity id quota room : Nat) (mock : MockService) :
    (start epoch capacity id quota room mock).Books K mock.droppedAcks mock.sends where
  spent := fun _ => by simp [start, Sender.start, Sender.tries, dropped]
  healed := nofun
  sends_eq := rfl
  repairs := by simp [start, Sender.start, owed]
  connections := rfl
  answered := nofun
  connected := trivial

/-- The books between two messages. -/
theorem books_goOn (spent : s.succeeded = 0 → mock.droppedAcks + s.failed * K = D)
    (healed : 0 < s.succeeded → mock.droppedAcks = 0 ∧ s.failed = D / K)
    (sends_eq : mock.sends + mock.droppedAcks = sends + s.succeeded + D)
    (repairs : sh.counters.reconnections + (if s.succeeded = 0 ∧ 0 < s.failed then 1 else 0)
      + mock.droppedAcks = D)
    (connections : sh.counters.connections = sh.counters.reconnections + 1)
    (connected : s.connection.isOpen = true ↔ ¬ (s.succeeded = 0 ∧ 0 < s.failed)) :
    Books K D sends { shared := sh, sender := s.goOn, mock } := by
  rcases s.goOn_cases with hgo | hgo
  · rw [hgo]
    exact ⟨spent, fun h => ⟨(healed h).1, (healed h).2, rfl⟩, sends_eq, repairs, connections,
      nofun, connected⟩
  · rw [hgo]
    exact ⟨spent, fun h => ⟨(healed h).1, (healed h).2, rfl⟩, sends_eq, repairs, connections,
      nofun, trivial⟩

/-- The books while a message is to be written. -/
theorem books_sending {t : Trial} (ht : t.retry.stage = .sending)
    (spent : s.succeeded = 0 → mock.droppedAcks + s.failed * K + t.retry.attempt = D)
    (healed : 0 < s.succeeded → mock.droppedAcks = 0 ∧ s.failed = D / K)
    (sends_eq : mock.sends + mock.droppedAcks = sends + s.succeeded + D)
    (repairs : sh.counters.reconnections + mock.droppedAcks = D)
    (connections : sh.counters.connections = sh.counters.reconnections + 1)
    (connected : s.connection.isOpen = true) :
    Books K D sends { shared := sh, sender := { s with stage := .trying t }, mock } where
  spent := by simpa [Sender.tries, Retry.tries, ht, dropped] using spent
  healed := fun h => ⟨(healed h).1, (healed h).2, rfl⟩
  sends_eq := sends_eq
  repairs := by simpa [owed, ht, dropped] using repairs
  connections := by simpa [Sender.opening, ht] using connections
  answered := nofun
  connected := by simpa [Connected, ht] using connected

theorem Books.answer_eq_none (hb : c.Books K D sends) (h : c.sender.isSending = false) :
    c.answer = none := by
  cases ha : c.answer with
  | none => rfl
  | some e => exact absurd (h.symm.trans (hb.answered e ha).1) Bool.false_ne_true

/-- The books are kept when an opening succeeds. -/
theorem Books.opened (hK : 1 ≤ settings.maxAttempts) (hsound : c.sender.Sound)
    (hb : c.Books K D sends) (hy : c.sender.step settings c.shared (.dialed (.ok ())) = some y) :
    Books K D sends { c with shared := y.1, sender := y.2, mock := c.mock.welcome } := by
  have hspent := hb.spent
  have hhealed := fun h => And.intro (hb.healed h).1 (hb.healed h).2.1
  have hsends := hb.sends_eq
  have hrepairs := hb.repairs
  have hconnections := hb.connections
  cases hs : c.sender.stage with
  | waiting | closing | left | crashed => simp [Sender.step, hs] at hy
  | dialing =>
    have hnone := hb.answer_eq_none (by simp [Sender.isSending, hs])
    simp only [Sender.Sound, hs, Sender.concluded] at hsound
    have hfailed : c.sender.failed = 0 := by omega
    simp only [Sender.tries, owed, dropped, acked, Sender.opening, hs, hnone, Nat.add_zero]
      at hspent hsends hrepairs hconnections
    simp only [Sender.step, hs, Sender.withLine_settle_ok] at hy
    rw [← Option.some.inj hy, hnone]
    refine books_goOn hspent hhealed hsends ?_ hconnections ?_
    · simpa [hfailed, Counters.addConnection] using hrepairs
    · simp [hfailed, Connection.isOpen_settle_ok]
  | repairing item =>
    have hnone := hb.answer_eq_none (by simp [Sender.isSending, hs])
    simp only [Sender.tries, owed, dropped, acked, Sender.opening, hs, hnone, Nat.add_zero]
      at hspent hsends hrepairs hconnections
    simp only [Sender.step, hs, Sender.withLine_settle_ok] at hy
    rw [Sender.tryItem_of_isOpen hK rfl] at hy
    rw [← Option.some.inj hy, hnone]
    exact books_sending rfl hspent hhealed hsends hrepairs hconnections rfl
  | trying t =>
    obtain ⟨x, hx, rfl⟩ := Sender.does_of_trying hs (.dialed (.ok ())) hy
    cases hx with
    | repaired u ht =>
      have hnone := hb.answer_eq_none (by simp [Sender.isSending, Retry.isSending, hs, ht])
      simp only [Sender.tries, Retry.tries, owed, dropped, acked, Sender.opening, hs, ht, hnone,
        Nat.add_zero] at hspent hsends hrepairs hconnections
      rw [hnone]
      exact books_sending (t := { t with retry := { t.retry with stage := .sending } }) rfl hspent
        hhealed hsends hrepairs hconnections rfl

/-- The books are kept when the sender looks at the queue. -/
theorem Books.looked (hK : 1 ≤ settings.maxAttempts) (ho : c.Orderly settings N)
    (hb : c.Books K D sends) (hy : c.sender.step settings c.shared .looked = some y) :
    Books K D sends { c with shared := y.1, sender := y.2 } := by
  have hspent := hb.spent
  have hhealed := fun h => And.intro (hb.healed h).1 (hb.healed h).2.1
  have hsends := hb.sends_eq
  have hrepairs := hb.repairs
  have hconnections := hb.connections
  have hexits : ∀ exit, y.2.exit? = some exit → exit = .quotaReached :=
    fun exit => ho.exit_of_step hy (by simp)
  cases hs : c.sender.stage with
  | dialing | repairing | trying | closing | left | crashed => simp [Sender.step, hs] at hy
  | waiting =>
    have hnone := hb.answer_eq_none (by simp [Sender.isSending, hs])
    have hconnected := hb.connected
    simp only [Sender.tries, owed, dropped, acked, Sender.opening, Connected, hs, hnone,
      Nat.add_zero] at hspent hsends hrepairs hconnections hconnected
    cases Sender.does_of_step hy with
    | tried _ _ t _ _ hst => simp [hs] at hst
    | told hst hstop => cases hexits .shutdown rfl
    | drained queue hst hstop hq => cases hexits .queueDrained rfl
    | starved queue hst hstop hq => exact hb
    | took item queue hst hstop hq =>
      cases hopen : c.sender.connection.isOpen with
      | true =>
        have hclear := hconnected.mp hopen
        rw [if_neg hclear] at hrepairs
        rw [Sender.accept_of_isOpen hK hopen, hnone]
        exact books_sending (s := { c.sender with processed := c.sender.processed + 1 }) rfl hspent
          hhealed hsends hrepairs hconnections hopen
      | false =>
        have hbroken : c.sender.succeeded = 0 ∧ 0 < c.sender.failed := by
          by_contra hclear
          exact absurd (hopen.symm.trans (hconnected.mpr hclear)) Bool.false_ne_true
        rw [if_pos hbroken] at hrepairs
        rw [Sender.accept_of_not_isOpen hopen, hnone]
        exact {
          spent := hspent, healed := fun h => ⟨(hhealed h).1, (hhealed h).2, rfl⟩
          sends_eq := hsends
          repairs := hrepairs, connections := congrArg (· + 1) hconnections
          answered := by simp, connected := trivial }

/-- The books are kept when a message is written. -/
theorem Books.wrote (hm : c.mock.Reliable settings.ackTimeout) (hb : c.Books K D sends)
    (hs : c.sender.isSending = true) (ha : c.answer = none) :
    Books K D sends
      { c with
        mock := (c.mock.send c.sender.connection.isOpen settings.ackTimeout).2
        answer := some (c.mock.send c.sender.connection.isOpen settings.ackTimeout).1 } := by
  obtain ⟨t, hst, ht⟩ := Sender.exists_trial_of_isSending hs
  have hopen : c.sender.connection.isOpen = true := by
    simpa only [Connected, hst, ht] using hb.connected
  have hspent := hb.spent
  have hsends := hb.sends_eq
  have hrepairs := hb.repairs
  simp only [dropped, acked, owed, hst, ht, ha, Nat.add_zero] at hspent hsends hrepairs
  rw [hopen]
  cases hd : c.mock.droppedAcks with
  | zero =>
    rw [hm.send hd]
    refine { hb with
      spent := hspent, healed := fun h => ⟨hd, (hb.healed h).2.1, rfl⟩, sends_eq := ?_
      repairs := ?_, answered := ?_ }
    · show c.mock.sends + 1 + c.mock.droppedAcks = sends + c.sender.succeeded + D + 1
      omega
    · simpa [owed, hst, ht, dropped, MockService.acknowledges] using hrepairs
    · rintro _ ⟨⟩
      exact ⟨hs, .acked rfl rfl hd⟩
  | succ k =>
    rw [MockService.send_of_droppedAcks hd]
    rw [hd] at hspent hsends hrepairs
    refine { hb with
      spent := fun h => ?_, healed := fun h => ?_, sends_eq := ?_
      repairs := ?_, answered := ?_ }
    · have hspent := hspent h
      show k + c.sender.failed * K + c.sender.tries + 1 = D
      omega
    · exact absurd (hd.symm.trans (hb.healed h).1) (Nat.succ_ne_zero k)
    · show c.mock.sends + 1 + k = sends + c.sender.succeeded + D + 0
      omega
    · simp only [owed, hst, ht, dropped, MockService.breaks, Bool.not_false, Bool.toNat_true]
      omega
    · rintro _ ⟨⟩
      exact ⟨hs, .dropped rfl⟩

/-- The books are kept when the sender learns that its link was closed. -/
theorem Books.broken {t : Trial} (hs : c.sender.stage = .trying t) (ht : t.retry.stage = .sending)
    (ha : c.answer = some MockService.breaks) (hb : c.Books settings.maxAttempts D sends)
    (hy : c.sender.step settings c.shared (.replied (.error .closed) false) = some y) :
    Books settings.maxAttempts D sends { shared := y.1, sender := y.2, mock := c.mock } := by
  have hspent := hb.spent
  have hhealed := hb.healed
  have hsends := hb.sends_eq
  have hrepairs := hb.repairs
  have hconnections := hb.connections
  simp only [Sender.tries, Retry.tries, dropped, acked, owed, Sender.opening, hs, ht, ha,
    MockService.breaks, Bool.not_false, Bool.toNat_true, Bool.toNat_false, Nat.add_zero]
    at hspent hhealed hsends hrepairs hconnections
  have hnone : c.sender.succeeded = 0 := by
    by_contra hne
    exact absurd (hhealed (Nat.pos_of_ne_zero hne)).2.2 Nat.one_ne_zero
  have hspent := hspent hnone
  have hclosed := c.sender.connection.isOpen_afterExchange_false
  obtain ⟨x, hx, rfl⟩ := Sender.does_of_trying hs (.replied (.error .closed) false) hy
  cases hx with
  | unanswered _ _ _ =>
    simp only [Retry.fail]
    split
    · next hlast =>
      -- the last attempt
      simp only [Sender.follow, Sender.conclude, SendOutcome.isSuccess, Bool.false_eq_true, if_false]
      refine books_goOn (fun _ => ?_) (fun h => ?_) hsends ?_ hconnections ?_
      · show c.mock.droppedAcks + (c.sender.failed + 1) * settings.maxAttempts = D
        rw [Nat.add_mul]
        omega
      · exact absurd (hnone ▸ h : 0 < 0) (Nat.lt_irrefl 0)
      · show c.shared.counters.reconnections
          + (if c.sender.succeeded = 0 ∧ 0 < c.sender.failed + 1 then 1 else 0)
          + c.mock.droppedAcks = D
        rw [if_pos ⟨hnone, Nat.succ_pos _⟩]
        exact hrepairs
      · exact iff_of_false (fun h => absurd (hclosed.symm.trans h) Bool.false_ne_true)
          (fun h => h ⟨hnone, Nat.succ_pos _⟩)
    · exact {
        spent := fun _ => hspent
        healed := fun h => absurd (hnone ▸ h : 0 < 0) (Nat.lt_irrefl 0)
        sends_eq := hsends, repairs := hrepairs, connections := hconnections
        answered := by simp, connected := hclosed }

/-- The books are kept when the sender gets its acknowledgement. -/
theorem Books.confirmed {t : Trial} {after : Nat} (hw : t.retry.Within settings)
    (hs : c.sender.stage = .trying t) (ht : t.retry.stage = .sending)
    (ha : c.answer = some { after, answer := .ok MockService.ack, linkOpen := true })
    (hd : c.mock.droppedAcks = 0) (hb : c.Books settings.maxAttempts D sends)
    (hy : c.sender.step settings c.shared (.replied (.ok MockService.ack) true) = some y) :
    Books settings.maxAttempts D sends { shared := y.1, sender := y.2, mock := c.mock } := by
  have hspent := hb.spent
  have hhealed := hb.healed
  have hsends := hb.sends_eq
  have hrepairs := hb.repairs
  have hconnections := hb.connections
  have hconnected := hb.connected
  simp only [Sender.tries, Retry.tries, dropped, acked, owed, Sender.opening, Connected, hs, ht, ha,
    Bool.not_true, Bool.toNat_true, Bool.toNat_false, Nat.add_zero]
    at hspent hhealed hsends hrepairs hconnections hconnected
  have hopen := Connection.isOpen_afterExchange_true hconnected
  -- the first message that is acknowledged ends the outage at one of its attempts
  have hfailed : c.sender.failed = D / settings.maxAttempts := by
    rcases Nat.eq_zero_or_pos c.sender.succeeded with hnone | hpos
    · have hlt := hw.attempt_lt
      have hspent := hspent hnone
      refine (Nat.div_eq_of_lt_le ?_ ?_).symm
      · omega
      · rw [Nat.succ_mul]
        omega
    · exact (hhealed hpos).2.1
  obtain ⟨x, hx, rfl⟩ := Sender.does_of_trying hs (.replied (.ok MockService.ack) true) hy
  cases hx with
  | acked _ _ _ =>
    simp only [Sender.follow, Sender.conclude, SendOutcome.isSuccess, if_true]
    refine books_goOn (fun h => absurd h (Nat.succ_ne_zero _)) (fun _ => ⟨hd, hfailed⟩) ?_ ?_
      hconnections ?_
    · show c.mock.sends + c.mock.droppedAcks = sends + (c.sender.succeeded + 1) + D
      omega
    · exact hrepairs
    · exact iff_of_true hopen (fun h => absurd h.1 (Nat.succ_ne_zero _))

/-- The books are kept when the sender gets its answer. -/
theorem Books.replied {e : Exchange} (hw : c.sender.Within settings)
    (hb : c.Books settings.maxAttempts D sends) (ha : c.answer = some e)
    (hy : c.sender.step settings c.shared (.replied e.answer e.linkOpen) = some y) :
    Books settings.maxAttempts D sends { shared := y.1, sender := y.2, mock := c.mock } := by
  obtain ⟨hsending, hanswered⟩ := hb.answered e ha
  obtain ⟨t, hs, ht⟩ := Sender.exists_trial_of_isSending hsending
  cases hanswered with
  | dropped he =>
    subst he
    exact hb.broken hs ht ha hy
  | acked hack hopen hd =>
    rcases e with ⟨after, answer, linkOpen⟩
    cases hack
    cases hopen
    exact hb.confirmed (hw.of_trying hs) hs ht ha hd hy

/-- The books are kept when a pause is over. -/
theorem Books.rested (hb : c.Books K D sends)
    (hy : c.sender.step settings c.shared .rested = some y) :
    Books K D sends { c with shared := y.1, sender := y.2 } := by
  cases hs : c.sender.stage with
  | dialing | waiting | repairing | closing | left | crashed => simp [Sender.step, hs] at hy
  | trying t =>
    obtain ⟨x, hx, rfl⟩ := Sender.does_of_trying hs .rested hy
    cases hx with
    | rested err deadline ht hdue =>
      have hnone := hb.answer_eq_none (by simp [Sender.isSending, Retry.isSending, hs, ht])
      have hspent := hb.spent
      have hrepairs := hb.repairs
      have hconnections := hb.connections
      have hconnected := hb.connected
      simp only [Sender.tries, Retry.tries, dropped, owed, Sender.opening, Connected, hs, ht, hnone,
        Nat.add_zero] at hspent hrepairs hconnections hconnected
      have hopen : ¬ (c.sender.line c.shared).connection.isOpen = true := by
        simpa [Sender.line] using hconnected
      rw [Retry.attempting, if_neg hopen]
      exact { hb with
        spent := by simpa [Sender.follow, Sender.withLine, Sender.tries, Retry.tries, dropped, hnone]
          using hspent
        repairs := hrepairs
        connections := congrArg (· + 1) hconnections
        answered := by simp [hnone]
        connected := trivial }

/-- The books are kept when the connection is closed. -/
theorem Books.closed (hb : c.Books K D sends)
    (hy : c.sender.step settings c.shared .closed = some y) :
    Books K D sends { c with shared := y.1, sender := y.2 } := by
  cases hs : c.sender.stage with
  | dialing | waiting | repairing | trying | left | crashed => simp [Sender.step, hs] at hy
  | closing exit =>
    have hnone := hb.answer_eq_none (by simp [Sender.isSending, hs])
    have hspent := hb.spent
    have hrepairs := hb.repairs
    have hconnections := hb.connections
    simp only [Sender.tries, owed, Sender.opening, hs] at hspent hrepairs hconnections
    simp only [Sender.step, hs] at hy
    rw [← Option.some.inj hy]
    exact { hb with
      spent := hspent, repairs := hrepairs, connections := hconnections
      answered := by simp [hnone], connected := trivial }

/-- **Every move keeps the books of an outage.** -/
theorem books_step (hK : 1 ≤ settings.maxAttempts) (h : c.step settings m = some c')
    (ho : c.Orderly settings N) (hb : c.Books settings.maxAttempts D sends) :
    c'.Books settings.maxAttempts D sends := by
  cases does_of_step ho.mock h with
  | opened y hy => exact hb.opened hK ho.sender hy
  | looked y hy => exact hb.looked hK ho hy
  | wrote hs ha => exact hb.wrote ho.mock hs ha
  | answered e y ha hy => exact hb.replied ho.within ha hy
  | rested y hy => exact hb.rested hy
  | closed y hy => exact hb.closed hy
  | supplied | ended | waited => exact { hb with }

end Outage

end LoadRig
