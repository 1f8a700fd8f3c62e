import LoadRig.Proofs.Retry.Course
import LoadRig.Proofs.Sender.Told
/-!
# The message in a sender's hand

A sender has at most one message in its hand. An event may put one there, and it may end the one that
is there, with one record; where no attempts are allowed at all, both at once. `Sender.Ends` and
`Sender.hands_step` say so for every event at once: what was in the hand, with what was taken, is what
has ended, with what is in the hand then.

The attempts at the message bound what it can cost. Every attempt writes it at most once, so the
attempts that have ended bound how often it was written, and every attempt begins with at most one
repair, so the attempts that are still to come bound the repairs that are still to come.

## Main definitions

* `LoadRig.SenderEvent.opens`, `LoadRig.SenderEvent.isAck` — what an event brings.
* `LoadRig.Sender.Ends` — what an event can end.
* `LoadRig.Sender.isSending`, `LoadRig.Sender.tries` — the attempts at the message so far.
* `LoadRig.Sender.repairsLeft` — the repairs that the message may still ask for.

## Main results

* `LoadRig.Sender.hands_step` — what becomes of the message in the hand.
* `LoadRig.Sender.tries_step`, `LoadRig.Sender.tries_le` — the attempts.
* `LoadRig.Sender.connections_step`, `LoadRig.Sender.repairs_step` — what is counted of connections.
-/

namespace LoadRig

/-- Whether an event is an opening that has succeeded. -/
def SenderEvent.opens : SenderEvent → Bool
  | .dialed (.ok _) => true
  | _ => false

/-- Whether an event is an acknowledgement. -/
def SenderEvent.isAck : SenderEvent → Bool
  | .replied (.ok _) _ => true
  | _ => false

namespace Sender

variable {settings : RetrySettings} {sh : Shared} {s : Sender} {e : SenderEvent}
  {y : Shared × Sender}

/-! ### What ends -/

/-- What an event can end: nothing, or one message with one record, which is good only if the event is
an acknowledgement. -/
inductive Ends (e : SenderEvent) : List WorkItem → List SampleRecord → Prop
  | nothing : Ends e [] []
  | message (item : WorkItem) (r : SampleRecord) (hk : r.kind = item.kind)
      (ho : r.outcome = .ok → e.isAck = true) : Ends e [item] [r]

/-- What was in the hand or was taken goes on or has ended, and what has ended is recorded. -/
def Hands (e : SenderEvent) (held : List WorkItem) (sh : Shared) (y : Shared × Sender) : Prop :=
  ∃ items ended, Ends e items ended ∧ y.1.pool.records = sh.pool.records ++ ended ∧
    held = items ++ y.2.inHand?.toList

theorem Hands.of_eq {held : List WorkItem} (hp : y.1.pool = sh.pool)
    (h : held = y.2.inHand?.toList) : Hands e held sh y :=
  ⟨[], [], .nothing, by rw [hp, List.append_nil], h⟩

theorem hands_follow (t : Trial) (status : RetryStatus) (sh : Shared) (s : Sender)
    (ho : ∀ o, status = .ended o → o.isSuccess = true → e.isAck = true) :
    Hands e [t.item] sh (follow t status sh s) := by
  cases status with
  | going retry => exact .of_eq rfl rfl
  | ended o =>
    refine ⟨[t.item], [recordOf t (if o.isSuccess then .ok else .fail) sh s],
      .message _ _ rfl fun hok => ?_, by simp [follow, conclude, recordOf], ?_⟩
    · cases hsuccess : o.isSuccess with
      | true => exact ho o rfl hsuccess
      | false => simp [recordOf, hsuccess] at hok
    · have hnone : (follow t (.ended o) sh s).2.inHand? = none := inHand?_goOn _
      rw [hnone]
      rfl

theorem not_isSuccess_attempting (l : Line) (n : Nat) {o : SendOutcome}
    (h : (Retry.attempting l n).2 = .ended o) : o.isSuccess = false := by
  rw [Retry.attempting] at h
  split at h <;> cases h

theorem not_isSuccess_start (l : Line) {o : SendOutcome}
    (h : (Retry.start settings l).2 = .ended o) : o.isSuccess = false := by
  rw [Retry.start] at h
  split at h
  · cases h
    rfl
  · exact not_isSuccess_attempting l 0 h

theorem not_isSuccess_fail (now : Moment) (n : Nat) (err : AttemptError) {o : SendOutcome}
    (h : Retry.fail settings now n err = .ended o) : o.isSuccess = false := by
  rw [Retry.fail] at h
  split at h
  · cases h
    rfl
  · cases h

theorem hands_tryItem (item : WorkItem) (sh : Shared) (s : Sender) :
    Hands e [item] sh (tryItem settings item sh s) :=
  hands_follow _ _ (s.withLine sh _).1 _ fun _ h hsuccess => by
    simp [not_isSuccess_start (s.line sh) h] at hsuccess

theorem hands_accept (item : WorkItem) (sh : Shared) (s : Sender) :
    Hands e [item] sh (accept settings item sh s) := by
  simp only [accept]
  split
  · exact hands_tryItem item sh _
  · exact .of_eq rfl rfl

/-! ### Events of a message -/

/-- What an event can make of a sender that tries a message: the message goes on or ends, the link is
lost, or the sender is brought down. -/
inductive Tries (settings : RetrySettings) (sh : Shared) (s : Sender) (t : Trial) :
    SenderEvent → Shared × Sender → Prop
  | goes (e : RetryEvent) (x : Line × RetryStatus)
      (h : Retry.Does settings sh.now sh.stopping (s.line sh) t.retry e x) :
      Tries settings sh s t (ofRetry e) (follow t x.2 (s.withLine sh x.1).1 (s.withLine sh x.1).2)
  | lost : Tries settings sh s t .lost (sh, { s with connection := s.connection.lose })
  | crashed : Tries settings sh s t .crashed
      ({ sh with queue := sh.queue.dropConsumer }, { s with stage := .crashed })

/-- What happens to the message in the hand is what `Retry.Does` says. -/
theorem does_of_trying {t : Trial} (hs : s.stage = .trying t) (e : RetryEvent)
    (h : s.step settings sh (ofRetry e) = some y) :
    ∃ x, Retry.Does settings sh.now sh.stopping (s.line sh) t.retry e x ∧
      y = follow t x.2 (s.withLine sh x.1).1 (s.withLine sh x.1).2 := by
  rw [step_ofRetry hs] at h
  obtain ⟨x, hx, rfl⟩ := Option.map_eq_some_iff.mp h
  exact ⟨x, Retry.does_of_step hx, rfl⟩

theorem tries_of_step {t : Trial} (hs : s.stage = .trying t) (h : s.step settings sh e = some y) :
    Tries settings sh s t e y := by
  have hretry : ∀ e', s.step settings sh (ofRetry e') = some y →
      Tries settings sh s t (ofRetry e') y := by
    intro e' h
    obtain ⟨x, hx, rfl⟩ := does_of_trying hs e' h
    exact .goes e' x hx
  cases e with
  | dialed r => exact hretry (.dialed r) h
  | replied r linkOpen => exact hretry (.replied r linkOpen) h
  | rested => exact hretry .rested h
  | interrupted => exact hretry .interrupted h
  | looked | closed => simp [step, hs] at h
  | lost =>
    rw [step, if_neg (by simp [isDone, hs])] at h
    rw [← Option.some.inj h]
    exact .lost
  | crashed =>
    rw [step, if_neg (by simp [isDone, hs])] at h
    rw [← Option.some.inj h]
    exact .crashed

/-- A message ends well only if it is acknowledged. -/
theorem isAck_of_does {now : Moment} {stopping : Bool} {l : Line} {r : Retry} {e : RetryEvent}
    {x : Line × RetryStatus} {o : SendOutcome} (h : Retry.Does settings now stopping l r e x)
    (hx : x.2 = .ended o) (ho : o.isSuccess = true) : (ofRetry e).isAck = true := by
  cases h with
  | acked => rfl
  | repaired => cases hx
  | interrupted =>
    cases hx
    cases ho
  | refused err | unanswered err => simp [not_isSuccess_fail _ _ _ hx] at ho
  | rested => simp [not_isSuccess_attempting _ _ hx] at ho

/-- **What becomes of the message in the hand**, unless the sender is brought down with it. -/
theorem hands_step (h : s.step settings sh e = some y) (hy : y.2.stage ≠ .crashed) :
    Hands e (s.inHand?.toList ++ s.takes sh e) sh y := by
  by_cases hs : ∃ t, s.stage = .trying t
  · obtain ⟨t, hs⟩ := hs
    rw [takes_of_stage_ne (by simp [hs]), List.append_nil, inHand?, hs]
    cases tries_of_step hs h with
    | goes e' x hx => exact hands_follow t x.2 _ _ fun o => isAck_of_does hx
    | lost => exact .of_eq rfl (by simp [inHand?, hs])
    | crashed => exact absurd rfl hy
  · cases does_of_step h with
    | connected u hst =>
      have hnone : (s.withLine sh ((s.line sh).settle (.ok u))).2.goOn.inHand? = none :=
        inHand?_goOn _
      refine .of_eq rfl ?_
      rw [hnone]
      simp [inHand?, takes, hst]
    | refused err hst | closed exit hst => exact .of_eq rfl (by simp [inHand?, takes, hst, leave])
    | repaired r item hst =>
      rw [takes_of_stage_ne (by simp [hst]), List.append_nil, inHand?, hst]
      exact hands_tryItem item (s.withLine sh _).1 _
    | tried _ _ t _ _ hst => exact absurd ⟨t, hst⟩ hs
    | told hst hstop =>
      have ht : s.takes sh .looked = [] := by simp [takes, hst, hstop]
      exact .of_eq rfl (by simp [inHand?, ht, hst, retire])
    | took item queue hst hstop hq =>
      have ht : s.takes sh .looked = [item] := by simp [takes, hst, hstop, hq]
      rw [ht, inHand?, hst]
      exact hands_accept item { sh with queue } s
    | drained queue hst hstop hq =>
      have ht : s.takes sh .looked = [] := by simp [takes, hst, hstop, hq]
      exact .of_eq rfl (by simp [inHand?, ht, hst, retire])
    | starved queue hst hstop hq =>
      have ht : s.takes sh .looked = [] := by simp [takes, hst, hstop, hq]
      exact .of_eq rfl (by simp [ht])
    | lost hd => exact .of_eq rfl (by simp [inHand?, takes])
    | crashed hd => exact absurd rfl hy

end Sender

/-! ### Attempts -/

namespace Retry

/-- Whether a message waits for its answer. -/
def isSending (r : Retry) : Bool :=
  match r.stage with
  | .sending => true
  | _ => false

/-- The attempts that have ended. -/
def tries (r : Retry) : Nat :=
  match r.stage with
  | .dialing | .sending => r.attempt
  | .resting _ _ => r.attempt + 1

/-- The repairs that may still be asked for: one for each attempt to come. -/
def repairsLeft (maxAttempts : Nat) (r : Retry) : Nat := maxAttempts - 1 - r.attempt

variable {settings : RetrySettings} {now : Moment} {stopping : Bool} {l : Line} {r r' : Retry}
  {e : RetryEvent} {x : Line × RetryStatus}

/-- No more attempts end than are allowed. -/
theorem tries_le (h : r.Within settings) : r.tries + r.isSending.toNat ≤ settings.maxAttempts := by
  cases hr : r.stage with
  | dialing | sending =>
    simp only [Within, hr] at h
    simp only [tries, isSending, hr, Bool.toNat_false, Bool.toNat_true]
    omega
  | resting err deadline =>
    simp only [Within, hr] at h
    simp only [tries, isSending, hr, Bool.toNat_false]
    omega

theorem tries_attempting {n : Nat} (h : (attempting l n).2 = .going r') : r'.tries = n := by
  rw [attempting] at h
  split at h <;> cases h <;> rfl

theorem tries_fail {n : Nat} {err : AttemptError} (h : fail settings now n err = .going r') :
    r'.tries = n + 1 := by
  rw [fail] at h
  split at h <;> cases h
  rfl

/-- An answer ends an attempt, and no attempt comes back. -/
theorem tries_of_does (h : Does settings now stopping l r e x) (hx : x.2 = .going r') :
    r.tries + r.isSending.toNat ≤ r'.tries := by
  cases h with
  | repaired u hs =>
    cases hx
    simp [tries, isSending, hs]
  | refused err hs =>
    rw [tries_fail hx]
    simp [tries, isSending, hs]
  | unanswered err linkOpen hs =>
    rw [tries_fail hx]
    simp [tries, isSending, hs]
  | rested err deadline hs hd =>
    rw [tries_attempting hx]
    simp [tries, isSending, hs]
  | acked | interrupted => cases hx

end Retry

/-- The repairs that a message may still ask for, which is none at its end. -/
def RetryStatus.repairsLeft (maxAttempts : Nat) : RetryStatus → Nat
  | .going r => r.repairsLeft maxAttempts
  | .ended _ => 0

namespace Retry

variable {settings : RetrySettings} {now : Moment} {stopping : Bool} {l : Line} {r : Retry}
  {e : RetryEvent} {x : Line × RetryStatus}

theorem repairsLeft_attempting (K : Nat) (l : Line) (n : Nat) :
    (attempting l n).2.repairsLeft K = K - 1 - n := by
  rw [attempting]
  split <;> rfl

theorem repairsLeft_fail_le (settings : RetrySettings) (now : Moment) (n : Nat) (err : AttemptError)
    (K : Nat) : (fail settings now n err).repairsLeft K ≤ K - 1 - n := by
  rw [fail]
  split
  · exact Nat.zero_le _
  · exact Nat.le_refl _

/-- A repair is paid for by the attempt that begins with it. -/
theorem repairs_of_does (h : Does settings now stopping l r e x) (hw : r.Within settings) :
    l.counters.reconnections ≤ x.1.counters.reconnections ∧
      x.1.counters.reconnections + x.2.repairsLeft settings.maxAttempts
        ≤ l.counters.reconnections + r.repairsLeft settings.maxAttempts := by
  cases h with
  | repaired u hs =>
    rw [Line.reconnections_settle]
    exact ⟨Nat.le_refl _, Nat.le_refl _⟩
  | refused err hs =>
    rw [Line.reconnections_settle]
    exact ⟨Nat.le_refl _, Nat.add_le_add_left (repairsLeft_fail_le ..) _⟩
  | acked | interrupted => exact ⟨Nat.le_refl _, Nat.add_le_add_left (Nat.zero_le _) _⟩
  | unanswered err linkOpen hs =>
    exact ⟨Nat.le_refl _, Nat.add_le_add_left (repairsLeft_fail_le ..) _⟩
  | rested err deadline hs hd =>
    have hnext := hw.next_lt hs
    have hle := Bool.toNat_le (!l.connection.isOpen)
    rw [reconnections_attempting, repairsLeft_attempting, repairsLeft]
    omega

/-- The first attempt at a message asks for a repair only if the connection is not open. -/
theorem repairs_start (settings : RetrySettings) (l : Line) :
    l.counters.reconnections ≤ (start settings l).1.counters.reconnections ∧
      (start settings l).1.counters.reconnections
          + (start settings l).2.repairsLeft settings.maxAttempts
        ≤ l.counters.reconnections
          + if l.connection.isOpen then settings.maxAttempts - 1 else settings.maxAttempts := by
  rw [start]
  split
  · exact ⟨Nat.le_refl _, Nat.add_le_add_left (Nat.zero_le _) _⟩
  · have hle := Bool.toNat_le (!l.connection.isOpen)
    rw [reconnections_attempting, repairsLeft_attempting]
    refine ⟨Nat.le_add_right _ _, ?_⟩
    cases l.connection.isOpen with
    | true => simp
    | false =>
      simp only [Bool.not_false, Bool.toNat_true, Bool.false_eq_true, if_false]
      omega

/-- Connections are counted as openings succeed. -/
theorem connections_attempting (l : Line) (n : Nat) :
    (attempting l n).1.counters.connections = l.counters.connections := by
  rw [attempting]
  split <;> rfl

end Retry

theorem Line.connections_settle (l : Line) (r : Except ConnectError Unit) :
    (l.settle r).counters.connections
      = l.counters.connections + (SenderEvent.dialed r).opens.toNat := by
  cases r <;> rfl

theorem Retry.connections_of_does {settings : RetrySettings} {now : Moment} {stopping : Bool} {l : Line}
    {r : Retry} {e : RetryEvent} {x : Line × RetryStatus} (h : Does settings now stopping l r e x) :
    x.1.counters.connections = l.counters.connections + (Sender.ofRetry e).opens.toNat := by
  cases h with
  | repaired | refused => exact l.connections_settle _
  | acked | unanswered | interrupted => rfl
  | rested => exact connections_attempting ..

namespace Sender

variable {settings : RetrySettings} {sh : Shared} {s : Sender} {e : SenderEvent}
  {y : Shared × Sender}

/-- Whether a sender waits for the answer to its message. -/
def isSending (s : Sender) : Bool :=
  match s.stage with
  | .trying t => t.retry.isSending
  | _ => false

/-- The attempts at the message in the hand that have ended. -/
def tries (s : Sender) : Nat :=
  match s.stage with
  | .trying t => t.retry.tries
  | _ => 0

/-- The repairs that the message in the hand may still ask for: before the first attempt one for each
attempt. -/
def repairsLeft (maxAttempts : Nat) (s : Sender) : Nat :=
  match s.stage with
  | .repairing _ => maxAttempts
  | .trying t => t.retry.repairsLeft maxAttempts
  | _ => 0

theorem tries_le (h : s.Within settings) : s.tries + s.isSending.toNat ≤ settings.maxAttempts := by
  cases hs : s.stage with
  | trying t => simpa only [tries, isSending, hs] using Retry.tries_le (h.of_trying hs)
  | dialing | waiting | repairing | closing | left | crashed => simp [tries, isSending, hs]

/-- **A message that stays in the hand** has an attempt more behind it when it has been answered. -/
theorem tries_step (h : s.step settings sh e = some y) (hl : e ≠ .lost)
    (hs : s.inHand?.isSome = true) (hy : y.2.inHand?.isSome = true) :
    s.tries + s.isSending.toNat ≤ y.2.tries := by
  cases hst : s.stage with
  | trying t =>
    simp only [tries, isSending, hst]
    cases tries_of_step hst h with
    | goes e' x hx =>
      rcases x with ⟨l, status⟩
      cases status with
      | going r => exact Retry.tries_of_does hx rfl
      | ended o =>
        have hnone : (follow t (.ended o) (s.withLine sh l).1 (s.withLine sh l).2).2.inHand? = none :=
          inHand?_goOn _
        simp [hnone] at hy
    | lost => exact absurd rfl hl
    | crashed => simp [inHand?] at hy
  | repairing item => simp [tries, isSending, hst]
  | dialing | waiting | closing | left | crashed => simp [inHand?, hst] at hs

/-! ### What is counted of connections -/

theorem counters_follow (t : Trial) (status : RetryStatus) (sh : Shared) (s : Sender) :
    (follow t status sh s).1.counters.connections = sh.counters.connections ∧
      (follow t status sh s).1.counters.reconnections = sh.counters.reconnections := by
  cases status with
  | going retry => exact ⟨rfl, rfl⟩
  | ended o => cases ho : o.isSuccess <;> simp [follow, conclude, ho, Counters.addSuccess,
      Counters.addFailure]

theorem repairsLeft_goOn (K : Nat) (s : Sender) : s.goOn.repairsLeft K = 0 := by
  rw [goOn]
  split <;> rfl

theorem repairsLeft_follow (K : Nat) (t : Trial) (status : RetryStatus) (sh : Shared) (s : Sender) :
    (follow t status sh s).2.repairsLeft K = status.repairsLeft K := by
  cases status with
  | going retry => rfl
  | ended o => exact repairsLeft_goOn K _

theorem connections_tryItem (item : WorkItem) (sh : Shared) (s : Sender) :
    (tryItem settings item sh s).1.counters.connections = sh.counters.connections := by
  have hstart : (Retry.start settings (s.line sh)).1.counters.connections
      = sh.counters.connections := by
    rw [Retry.start]
    split
    · rfl
    · exact Retry.connections_attempting ..
  exact (counters_follow ..).1.trans hstart

theorem connections_accept (item : WorkItem) (sh : Shared) (s : Sender) :
    (accept settings item sh s).1.counters.connections = sh.counters.connections := by
  simp only [accept]
  split
  · exact connections_tryItem item sh _
  · rfl

/-- **Connections are counted as openings succeed.** -/
theorem connections_step (h : s.step settings sh e = some y) :
    y.1.counters.connections = sh.counters.connections + e.opens.toNat := by
  by_cases hs : ∃ t, s.stage = .trying t
  · obtain ⟨t, hs⟩ := hs
    cases tries_of_step hs h with
    | goes e' x hx => exact (counters_follow ..).1.trans (Retry.connections_of_does hx)
    | lost | crashed => rfl
  · cases does_of_step h with
    | connected u hst => exact (s.line sh).connections_settle (.ok u)
    | refused err hst => exact (s.line sh).connections_settle (.error err)
    | repaired r item hst =>
      exact (connections_tryItem ..).trans (Line.connections_settle ..)
    | tried _ _ t _ _ hst => exact absurd ⟨t, hst⟩ hs
    | took item queue hst hstop hq => exact connections_accept ..
    | told | drained | starved | closed | lost | crashed => rfl

/-- What a message that is taken can cost in repairs: one for each attempt but the first, and two
more if the connection is not open by then. -/
def repairsFor (maxAttempts : Nat) (s : Sender) : Nat :=
  if s.connection.isOpen then maxAttempts - 1 else maxAttempts + 1

theorem repairs_tryItem (settings : RetrySettings) (item : WorkItem) (sh : Shared) (s : Sender) :
    sh.counters.reconnections ≤ (tryItem settings item sh s).1.counters.reconnections ∧
      (tryItem settings item sh s).1.counters.reconnections
          + (tryItem settings item sh s).2.repairsLeft settings.maxAttempts
        ≤ sh.counters.reconnections
          + if s.connection.isOpen then settings.maxAttempts - 1 else settings.maxAttempts := by
  have hstart := Retry.repairs_start settings (s.line sh)
  have hcount : (tryItem settings item sh s).1.counters.reconnections
      = (Retry.start settings (s.line sh)).1.counters.reconnections := (counters_follow ..).2
  have hleft : (tryItem settings item sh s).2.repairsLeft settings.maxAttempts
      = (Retry.start settings (s.line sh)).2.repairsLeft settings.maxAttempts :=
    repairsLeft_follow ..
  rw [hcount, hleft]
  exact hstart

theorem repairs_accept (settings : RetrySettings) (item : WorkItem) (sh : Shared) (s : Sender) :
    sh.counters.reconnections ≤ (accept settings item sh s).1.counters.reconnections ∧
      (accept settings item sh s).1.counters.reconnections
          + (accept settings item sh s).2.repairsLeft settings.maxAttempts
        ≤ sh.counters.reconnections + s.repairsFor settings.maxAttempts := by
  simp only [accept, repairsFor]
  split
  · next ho =>
    have htry := repairs_tryItem settings item sh { s with processed := s.processed + 1 }
    rwa [if_pos ho] at htry
  · refine ⟨Nat.le_succ _, ?_⟩
    show sh.counters.reconnections + 1 + settings.maxAttempts ≤ _
    omega

/-- **Every repair is paid for** by a message that is taken or by an attempt that begins with it. -/
theorem repairs_step (h : s.step settings sh e = some y) (hw : s.Within settings) :
    sh.counters.reconnections ≤ y.1.counters.reconnections ∧
      y.1.counters.reconnections + y.2.repairsLeft settings.maxAttempts
        ≤ sh.counters.reconnections + s.repairsLeft settings.maxAttempts
          + (s.takes sh e).length * s.repairsFor settings.maxAttempts := by
  by_cases hs : ∃ t, s.stage = .trying t
  · obtain ⟨t, hs⟩ := hs
    have hnone : s.takes sh e = [] := takes_of_stage_ne (by simp [hs])
    have hleft : s.repairsLeft settings.maxAttempts = t.retry.repairsLeft settings.maxAttempts := by
      simp only [repairsLeft, hs]
    rw [hnone, List.length_nil, Nat.zero_mul, Nat.add_zero, hleft]
    cases tries_of_step hs h with
    | goes e' x hx =>
      rw [(counters_follow ..).2, repairsLeft_follow]
      exact Retry.repairs_of_does hx (hw.of_trying hs)
    | lost => exact ⟨Nat.le_refl _, by simp [repairsLeft, hs]⟩
    | crashed => exact ⟨Nat.le_refl _, by simp [repairsLeft]⟩
  · cases does_of_step h with
    | connected u hst =>
      rw [repairsLeft_goOn]
      exact ⟨Nat.le_refl _, Nat.le_add_right_of_le (Nat.le_add_right _ _)⟩
    | refused err hst | closed exit hst | crashed hd | told hst _ | drained _ hst _ _ =>
      exact ⟨Nat.le_refl _, Nat.le_add_right_of_le (Nat.le_add_right _ _)⟩
    | starved | lost => exact ⟨Nat.le_refl _, Nat.le_add_right _ _⟩
    | repaired r item hst =>
      have htry := repairs_tryItem settings item (s.withLine sh ((s.line sh).settle r)).1
        (s.withLine sh ((s.line sh).settle r)).2
      have hsame : (s.withLine sh ((s.line sh).settle r)).1.counters.reconnections
          = sh.counters.reconnections := Line.reconnections_settle ..
      have hleft : s.repairsLeft settings.maxAttempts = settings.maxAttempts := by
        simp only [repairsLeft, hst]
      rw [hsame] at htry
      refine ⟨htry.1, htry.2.trans ?_⟩
      split <;> omega
    | tried _ _ t _ _ hst => exact absurd ⟨t, hst⟩ hs
    | took item queue hst hstop hq =>
      have htakes : s.takes sh .looked = [item] := by simp [takes, hst, hstop, hq]
      have haccept := repairs_accept settings item { sh with queue } s
      have hleft : s.repairsLeft settings.maxAttempts = 0 := by simp only [repairsLeft, hst]
      rw [htakes, hleft, List.length_singleton, Nat.one_mul, Nat.add_zero]
      exact haccept

end Sender

end LoadRig
