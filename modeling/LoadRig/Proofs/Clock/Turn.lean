import LoadRig.Clock.Run
import LoadRig.Proofs.Sender.Effort
/-!
# Turns and rounds of a virtual clock

What a sender does when it gets its turn, and what a round of the clock does. A turn gives the sender
what it has asked for, lets it ask, or lets it meet what needs no asking; and a sender that gets no
turn has nothing to do at this moment. A round lets something in from outside, lets the phase let go of
the queue, lets the producer put in a message, lets every sender go on as long as it can, or goes on to
the next moment at which something is due.

## Main definitions

* `LoadRig.Sender.Dials`, `LoadRig.Sender.Sends` — a sender that waits for the service.
* `LoadRig.Sender.Heeds` — an event that does something to a sender.
* `LoadRig.Clock.Run.Rests` — a sender that has nothing to do at this moment.
* `LoadRig.Clock.Run.Turns`, `LoadRig.Clock.Run.Ticks` — what a turn and a round can be.

## Main results

* `LoadRig.Clock.Run.turns`, `LoadRig.Clock.Run.ticks` — every turn and every round is one of the
  cases.
-/

namespace LoadRig

/-! ### What senders wait for -/

/-- A sender waits for the opening of its connection. -/
inductive Sender.Dials (s : Sender) : Prop
  | first (hs : s.stage = .dialing)
  | repair (item : WorkItem) (hs : s.stage = .repairing item)
  | again (t : Trial) (hs : s.stage = .trying t) (ht : t.retry.stage = .dialing)

/-- A sender waits for the answer to its message. -/
def Sender.Sends (s : Sender) : Prop :=
  ∃ t, s.stage = .trying t ∧ t.retry.stage = .sending

/-- Whether a sender waits for the service. -/
def Sender.asks (s : Sender) : Bool :=
  match s.stage with
  | .dialing | .repairing _ => true
  | .trying _ => s.deadline?.isNone
  | _ => false

theorem Sender.Dials.not_sends {s : Sender} (h : s.Dials) : ¬ s.Sends := by
  rintro ⟨t, hs, ht⟩
  rcases h with hs' | ⟨item, hs'⟩ | ⟨t', hs', ht'⟩
  · rw [hs] at hs'
    cases hs'
  · rw [hs] at hs'
    cases hs'
  · rw [hs] at hs'
    cases hs'
    rw [ht] at ht'
    cases ht'

/-- A sender that makes a pause does not wait for the service. -/
theorem Sender.asks_of_deadline {s : Sender} {deadline : Moment} (h : s.deadline? = some deadline) :
    s.asks = false := by
  cases hs : s.stage with
  | trying t => simp [asks, hs, h]
  | dialing | waiting | repairing item | closing exit | left exit | crashed =>
    simp [deadline?, hs] at h

theorem Sender.Dials.asks {s : Sender} (h : s.Dials) : s.asks = true := by
  cases h with
  | first hs | repair item hs => simp [Sender.asks, hs]
  | again t hs ht => simp [Sender.asks, deadline?, hs, ht]

theorem Sender.Sends.asks {s : Sender} (h : s.Sends) : s.asks = true := by
  obtain ⟨t, hs, ht⟩ := h
  simp [Sender.asks, deadline?, hs, ht]

theorem Sender.Dials.isDone_eq {s : Sender} (h : s.Dials) : s.isDone = false := by
  cases h with
  | first hs | repair item hs | again t hs ht => simp [isDone, hs]

theorem Sender.Dials.isSome_step {s : Sender} (h : s.Dials) (settings : RetrySettings) (sh : Shared)
    (result : Except ConnectError Unit) : (s.step settings sh (.dialed result)).isSome := by
  cases h with
  | first hs => cases result <;> simp [step, hs]
  | repair item hs => simp [step, hs]
  | again t hs ht => cases result <;> simp [step, Retry.step, hs, ht]

theorem Sender.Sends.isSome_step {s : Sender} (h : s.Sends) (settings : RetrySettings) (sh : Shared)
    (answer : Except SendError String) (linkOpen : Bool) :
    (s.step settings sh (.replied answer linkOpen)).isSome := by
  obtain ⟨t, hs, ht⟩ := h
  cases answer <;> simp [step, Retry.step, hs, ht]

/-- A sender meets an event that does something to it. -/
structure Sender.Heeds (settings : RetrySettings) (sh : Shared) (s : Sender) (e : SenderEvent) :
    Prop where
  isSome : (s.step settings sh e).isSome
  not_idles : ¬ s.Idles sh e

namespace Clock

open LoadRig.Random

/-- A sender has asked for what it waits for, if it has asked for anything. -/
def Pending.Suits (s : Sender) : Pending → Prop
  | .nothing => True
  | .dial _ _ => s.Dials
  | .reply _ _ => s.Sends

namespace Run

variable {p : Patience} {r : Run} {i : Nat} {s : Sender}

/-! ### Turns -/

/-- A sender that has nothing to do at this moment: it is done, it waits at the queue, or an answer
or the end of its pause is due later. -/
inductive Rests (r : Run) (i : Nat) (s : Sender) : Prop
  | done (hd : s.isDone = true)
  | starved (hs : s.stage = .waiting) (h : Sender.hasReason r.phase.shared = false)
  | asked (q : Pending) (due : Moment) (hq : r.pending[i]? = some q) (ha : s.asks = true)
      (hdue : q.due? = some due) (hlt : r.phase.shared.now < due)
  | resting (deadline : Moment) (hs : s.deadline? = some deadline)
      (hstop : r.phase.shared.stopping = false) (hlt : r.phase.shared.now < deadline)

/-- What the turn of a sender can be. A sender that gets none has nothing to do, provided that it has
asked for what it waits for. -/
inductive Turns (p : Patience) (r : Run) (i : Nat) (s : Sender) : Option Run → Prop
  | answered (q : Pending) (e : SenderEvent) (service : Service) (hq : r.pending[i]? = some q)
      (he : s.Heeds p.retry r.phase.shared e) :
      Turns p r i s (some (({ r with service }.ask i .nothing).meet p i e))
  | asked (q : Pending) (service : Service) (hq : r.pending[i]? = some .nothing) (hs : q.Suits s)
      (hdue : q.due? ≠ none) : Turns p r i s (some ({ r with service }.ask i q))
  | met (e : SenderEvent) (ha : s.asks = false) (he : s.Heeds p.retry r.phase.shared e) :
      Turns p r i s (some (r.meet p i e))
  | still (h : ∀ q, r.pending[i]? = some q → q.Suits s → r.Rests i s) : Turns p r i s none

theorem turns_askDial (hq : r.pending[i]? = some .nothing) (hd : s.Dials) :
    Turns p r i s (some (r.askDial p i s)) := by
  simp only [askDial]
  split
  · exact .asked (.dial _ _) _ hq hd (by simp [Pending.due?])
  · split
    · exact .asked (.dial _ _) _ hq hd (by simp [Pending.due?])
    · exact .asked (.dial _ _) _ hq hd (by simp [Pending.due?])

theorem turns_giveDial {q : Pending} (hq : r.pending[i]? = some q) (hd : s.Dials)
    (verdict : Option Verdict) : Turns p r i s (some (r.giveDial p i s verdict)) := by
  have he : ∀ result, s.Heeds p.retry r.phase.shared (.dialed result) := fun result =>
    ⟨hd.isSome_step .., id⟩
  simp only [giveDial]
  split
  · split
    · exact .answered q _ (r.service.settle s.room _).2 hq (he _)
    · exact .answered q _ (r.service.settle s.room _).2 hq ⟨by simp [Sender.step, hd.isDone_eq], id⟩
  · exact .answered q _ r.service hq (he _)

theorem turns_turnDialing (hd : s.Dials) : Turns p r i s (r.turnDialing p i s) := by
  rw [turnDialing]
  split
  · next due verdict hq =>
    split
    · exact turns_giveDial hq hd verdict
    · next hlater =>
      exact .still fun q hq' _ => .asked q due hq' hd.asks
        (by rw [← Option.some.inj (hq.symm.trans hq')]; rfl) (by simpa using hlater)
  · next hq => exact turns_askDial hq hd
  · next hdial hnothing =>
    refine .still fun q hq hsuits => ?_
    cases q with
    | nothing => exact absurd hq hnothing
    | dial due verdict => exact absurd hq (hdial due verdict)
    | reply due e => exact absurd hsuits hd.not_sends

/-- **Every turn is one of the cases.** -/
theorem turns (p : Patience) (hs : r.phase.senders[i]? = some s) : Turns p r i s (r.turn p i) := by
  simp only [turn, hs]
  split
  · next hstage => exact turns_turnDialing (.first hstage)
  · next item hstage => exact turns_turnDialing (.repair item hstage)
  · next hstage =>
    split
    · next hreason =>
      refine .met .looked (by simp [Sender.asks, hstage]) ⟨by simp [Sender.step, hstage], ?_⟩
      rintro ⟨-, hnone⟩
      simp [hreason] at hnone
    · next hnone => exact .still fun _ _ _ => .starved hstage (by simpa using hnone)
  · next t hstage =>
    split
    · next hretry => exact turns_turnDialing (.again t hstage hretry)
    · next hretry =>
      have hsends : s.Sends := ⟨t, hstage, hretry⟩
      split
      · next due e hq =>
        split
        · exact .answered _ _ r.service hq ⟨hsends.isSome_step .., id⟩
        · next hlater =>
          exact .still fun q hq' _ => .asked q due hq' hsends.asks
            (by rw [← Option.some.inj (hq.symm.trans hq')]; rfl) (by simpa using hlater)
      · next hq => exact .asked (.reply _ _) _ hq hsends (by simp [Pending.due?])
      · next hreply hnothing =>
        refine .still fun q hq hsuits => ?_
        cases q with
        | nothing => exact absurd hq hnothing
        | dial due verdict => exact absurd hsends (Sender.Dials.not_sends hsuits)
        | reply due e => exact absurd hq (hreply due e)
    · next error deadline hretry =>
      have hdeadline : s.deadline? = some deadline := by simp [Sender.deadline?, hstage, hretry]
      have ha := Sender.asks_of_deadline hdeadline
      split
      · next hstop =>
        exact .met _ ha ⟨by simp [Sender.step, Retry.step, hstage, hretry, hstop], id⟩
      · next hstop =>
        split
        · next hdue => exact .met _ ha ⟨by simp [Sender.step, Retry.step, hstage, hretry, hdue], id⟩
        · next hlater =>
          exact .still fun _ _ _ => .resting deadline hdeadline (by simpa using hstop)
            (by simpa using hlater)
  · next exit hstage =>
    exact .met _ (by simp [Sender.asks, hstage]) ⟨by simp [Sender.step, hstage], id⟩
  · next exit hstage => exact .still fun _ _ _ => .done (by simp [Sender.isDone, hstage])
  · next hstage => exact .still fun _ _ _ => .done (by simp [Sender.isDone, hstage])

/-! ### Rounds -/

/-- What a round of the clock can be. -/
inductive Ticks (p : Patience) (fuel : Nat) (r : Run) : Option Run → Prop
  | letIn (r' : Run) (h : r.letIn p = (true, r')) : Ticks p fuel r (some r')
  | release (h : r.phase.holding = true) : Ticks p fuel r (some (r.move p .release))
  | produce (phase : Phase ChaCha) (h : r.phase.step p.retry .produce = some phase) :
      Ticks p fuel r (some { r with phase })
  | round (r' : Run) (h : r.round p fuel = (true, r')) : Ticks p fuel r (some r')
  | advance (now : Moment) (hlet : (r.letIn p).1 = false)
      (hmin : (r.dues.filter (r.phase.shared.now < ·)).min? = some now)
      (hmay : r.phase.mayAdvance now = true) : Ticks p fuel r (some (r.move p (.advance now)))
  | still (hholding : r.phase.holding = false) (hproduce : r.phase.step p.retry .produce = none)
      (hround : (r.round p fuel).1 = false)
      (hnext : ∀ now, (r.dues.filter (r.phase.shared.now < ·)).min? = some now →
        r.phase.mayAdvance now = false) : Ticks p fuel r none

/-- **Every round is one of the cases.** -/
theorem ticks (p : Patience) (fuel : Nat) (r : Run) : Ticks p fuel r (r.tick p fuel) := by
  rw [tick]
  split
  · next r' hlet => exact .letIn r' hlet
  · next _ hlet =>
    split
    · next hholding => exact .release hholding
    · next hholding =>
      have hholding : r.phase.holding = false := by simpa using hholding
      split
      · next phase hproduce => exact .produce phase hproduce
      · next hproduce =>
        split
        · next r' hround => exact .round r' hround
        · next r' hround =>
          have hround : (r.round p fuel).1 = false := by rw [hround]
          split
          · next now hmin =>
            split
            · next hmay => exact .advance now (by rw [hlet]) hmin hmay
            · next hnot =>
              exact .still hholding hproduce hround fun now' hmin' => by
                rw [← Option.some.inj (hmin.symm.trans hmin')]
                simpa using hnot
          · next hmin =>
            exact .still hholding hproduce hround fun now hmin' => by simp [hmin] at hmin'

end Run

end Clock

end LoadRig
