import LoadRig.Proofs.Clock.Run
import LoadRig.Proofs.Phase.Progress
import Mathlib.Algebra.Order.BigOperators.Group.List
/-!
# What is left to do on a virtual clock

`Run.effort` is what is left to do for a phase, four times over, and with it what is left to ask and
to wait for: a sender that has asked for nothing may ask, and an answer or the end of a pause may be
due later. Every move of a sender pays for the asking and the waiting that may come of it, and every
step of the clock brings it to a moment that something was waiting for. So whatever is done on the
clock leaves less to do.

## Main definitions

* `LoadRig.Clock.Run.Orderly` — every sender has asked for what it waits for, if for anything.
* `LoadRig.Clock.Run.effort` — what is left to do, to ask and to wait for.
* `LoadRig.Clock.Run.Lowers` — a run goes on in order and has less left to do.

## Main results

* `LoadRig.Clock.Run.Orderly.meet` — a sender meets an event.
* `LoadRig.Clock.Run.Orderly.lowers_turn` — one turn of a sender.
* `LoadRig.Clock.Run.Orderly.lowers_letIn`, `LoadRig.Clock.Run.Orderly.lowers_release`,
  `LoadRig.Clock.Run.Orderly.lowers_produce`, `LoadRig.Clock.Run.Orderly.lowers_advance` — the other
  things that a round can do.
-/

namespace LoadRig

namespace Clock

open LoadRig.Random

/-- One for a moment that is still to come. -/
def ahead (now due : Nat) : Nat := if now < due then 1 else 0

theorem ahead_le (now due : Nat) : ahead now due ≤ 1 := by
  rw [ahead]
  split <;> omega

theorem ahead_antitone {now now' : Nat} (h : now ≤ now') (due : Nat) :
    ahead now' due ≤ ahead now due := by
  unfold ahead
  split <;> split <;> omega

theorem ahead_self_lt {now due : Nat} (h : now < due) : ahead due due < ahead now due := by
  simp [ahead, h]

/-- What is left to ask and to wait for, for what a sender has asked for. -/
def Pending.effort (now : Moment) (q : Pending) : Nat :=
  match q.due? with
  | some due => ahead now due
  | none => 2

/-- What is left to wait for, for the pause of a sender. -/
def pauseEffort (now : Moment) (s : Sender) : Nat :=
  match s.deadline? with
  | some deadline => ahead now deadline
  | none => 0

theorem Pending.effort_antitone {now now' : Nat} (h : now ≤ now') (q : Pending) :
    q.effort now' ≤ q.effort now := by
  rw [effort, effort]
  split
  · exact ahead_antitone h _
  · exact Nat.le_refl 2

theorem Pending.effort_lt {now due : Nat} (h : now < due) {q : Pending} (hq : q.due? = some due) :
    q.effort due < q.effort now := by
  simpa only [effort, hq] using ahead_self_lt h

theorem pauseEffort_antitone {now now' : Nat} (h : now ≤ now') (s : Sender) :
    pauseEffort now' s ≤ pauseEffort now s := by
  rw [pauseEffort, pauseEffort]
  split
  · exact ahead_antitone h _
  · exact Nat.le_refl 0

theorem pauseEffort_lt {now due : Nat} (h : now < due) {s : Sender} (hs : s.deadline? = some due) :
    pauseEffort due s < pauseEffort now s := by
  simpa only [pauseEffort, hs] using ahead_self_lt h

theorem pauseEffort_le (now : Moment) (s : Sender) : pauseEffort now s ≤ 1 := by
  rw [pauseEffort]
  split
  · exact ahead_le ..
  · exact Nat.zero_le 1

namespace Run

variable {p : Patience} {r r' : Run} {i : Nat} {s : Sender} {e : SenderEvent}

/-- What is left to do in a run at most, four times over, with what is left to ask and to wait for:
three at most for each sender, so that a move pays for what its sender may then ask and wait for. -/
def effort (p : Patience) (r : Run) : Nat :=
  4 * r.phase.rank p.retry + (r.pending.map (Pending.effort r.phase.shared.now)).sum +
    Phase.total (pauseEffort r.phase.shared.now) r.phase.senders +
    (r.outside.map fun o => 1 + ahead r.phase.shared.now o.1).sum

/-- A run in order: its phase is, every sender has asked for what it waits for, and only the sign to
stop is to come from outside. -/
structure Orderly (p : Patience) (r : Run) : Prop where
  steady : r.phase.Steady p.retry
  outside : OnlyStops r.outside
  length_eq : r.pending.length = r.phase.senders.length
  suits : ∀ (i : Nat) (s : Sender) (q : Pending), r.phase.senders[i]? = some s →
    r.pending[i]? = some q → q.Suits s

/-! ### Single moves -/

theorem Orderly.ask (h : r.Orderly p) {q : Pending} (hs : r.phase.senders[i]? = some s)
    (hq : q.Suits s) : (r.ask i q).Orderly p where
  steady := h.steady
  outside := h.outside
  length_eq := (List.length_set ..).trans h.length_eq
  suits := by
    intro j s' q' hs' hq'
    simp only [Run.ask, List.getElem?_set] at hs' hq'
    split at hq'
    · next hij =>
      subst hij
      split at hq'
      · rw [← Option.some.inj hq', ← Option.some.inj (hs.symm.trans hs')]
        exact hq
      · cases hq'
    · exact h.suits j s' q' hs' hq'

/-- Whatever a sender asks for, only what is left to ask and to wait for changes. -/
theorem effort_ask {q : Pending} (q' : Pending) (hq : r.pending[i]? = some q) :
    (r.ask i q').effort p + q.effort r.phase.shared.now
      = r.effort p + q'.effort r.phase.shared.now := by
  have hsum := Phase.sum_map_set (f := Pending.effort r.phase.shared.now) hq
    (Nat.add_comm (q'.effort r.phase.shared.now) (q.effort r.phase.shared.now))
  simp only [effort, Run.ask]
  omega

/-- A sender that has asked for nothing meets an event: what it has to do is less by more than what
it may have to ask and to wait for then. -/
theorem Orderly.move (h : r.Orderly p) (hs : r.phase.senders[i]? = some s)
    (hq : r.pending[i]? = some .nothing) {y : Shared × Sender}
    (hy : s.step p.retry r.phase.shared e = some y) (hi : ¬ s.Idles r.phase.shared e) :
    (r.move p (.sender i e)).Orderly p ∧
      (r.move p (.sender i e)).effort p + 3 ≤ r.effort p ∧
      (r.move p (.sender i e)).phase.senders[i]? = some y.2 ∧
      (r.move p (.sender i e)).pending = r.pending := by
  have hstep := Phase.step_sender hs hy
  have hmove : r.move p (.sender i e)
      = { r with phase :=
          { r.phase with shared := y.1, senders := r.phase.senders.set i y.2 } } := by
    rw [Run.move, hstep]
  have hlt := (List.getElem?_eq_some_iff.mp hs).1
  obtain ⟨ended, he⟩ := Sender.entered_step hy
  have hnow : y.1.now = r.phase.shared.now := he.now_eq
  rw [hmove]
  refine ⟨⟨Phase.steady_step hstep h.steady, h.outside, ?_, ?_⟩, ?_, by simp [hlt], rfl⟩
  · exact h.length_eq.trans (List.length_set ..).symm
  · intro j s' q' hs' hq'
    simp only [List.getElem?_set] at hs'
    split at hs'
    · next hij =>
      subst hij
      rw [← Option.some.inj (hq.symm.trans hq')]
      exact trivial
    · exact h.suits j s' q' hs' hq'
  · have hbusy : ¬ r.phase.Idle (.sender i e) := by
      rintro ⟨s', hs', hidle⟩
      exact hi (Option.some.inj (hs.symm.trans hs') ▸ hidle)
    have hrank := Phase.rank_step hstep h.steady hbusy
    have hpause := pauseEffort_le r.phase.shared.now y.2
    have htotal : Phase.total (pauseEffort r.phase.shared.now) (r.phase.senders.set i y.2)
          + pauseEffort r.phase.shared.now s
        = Phase.total (pauseEffort r.phase.shared.now) r.phase.senders
          + pauseEffort r.phase.shared.now y.2 :=
      Phase.total_set hs (Nat.add_comm ..)
    simp only [effort, hnow]
    omega

/-- A connection that is closed at once leaves even less to do. -/
theorem Orderly.meet (h : r.Orderly p) (hs : r.phase.senders[i]? = some s)
    (hq : r.pending[i]? = some .nothing) (he : s.Heeds p.retry r.phase.shared e) :
    (r.meet p i e).Orderly p ∧ (r.meet p i e).effort p + 3 ≤ r.effort p := by
  obtain ⟨y, hy⟩ := Option.isSome_iff_exists.mp he.isSome
  obtain ⟨horderly, hless, hplace, hpending⟩ := h.move hs hq hy he.not_idles
  simp only [Run.meet]
  split
  · next hclosing =>
    have hsender := Option.some.inj (hplace.symm.trans hclosing)
    obtain ⟨y', hy'⟩ : ∃ y', y.2.step p.retry (r.move p (.sender i e)).phase.shared .closed
        = some y' := by
      rw [hsender]
      exact ⟨_, rfl⟩
    obtain ⟨horderly', hless', -⟩ := horderly.move hplace (hpending ▸ hq) hy' id
    exact ⟨horderly', by omega⟩
  · exact ⟨horderly, hless⟩

/-! ### Turns -/

/-- A run goes on in order and has less left to do. -/
structure Lowers (p : Patience) (r r' : Run) : Prop where
  orderly : r'.Orderly p
  less : r'.effort p < r.effort p

/-- What the service remembers has no part in what is left to do. -/
theorem Lowers.of_service {service : Service} (h : Lowers p { r with service } r') :
    Lowers p r r' :=
  ⟨h.orderly, h.less⟩

theorem Orderly.of_service (h : r.Orderly p) (service : Service) :
    ({ r with service } : Run).Orderly p :=
  ⟨h.steady, h.outside, h.length_eq, h.suits⟩

/-- A sender that has asked for something later has less to ask than one that has asked for nothing. -/
theorem effort_ask_lt {q : Pending} (hnothing : r.pending[i]? = some .nothing)
    (hq : q.due? ≠ none) : (r.ask i q).effort p < r.effort p := by
  have hask := effort_ask (p := p) q hnothing
  have hle : q.effort r.phase.shared.now ≤ 1 := by
    rw [Pending.effort]
    split
    · exact ahead_le ..
    · next hnone => exact absurd hnone hq
  have htwo : Pending.nothing.effort r.phase.shared.now = 2 := rfl
  omega

/-- What a sender has asked for. -/
theorem Orderly.exists_pending (h : r.Orderly p) (hs : r.phase.senders[i]? = some s) :
    ∃ q, r.pending[i]? = some q ∧ q.Suits s := by
  have hlt : i < r.pending.length := h.length_eq ▸ (List.getElem?_eq_some_iff.mp hs).1
  have hq := List.getElem?_eq_getElem hlt
  exact ⟨_, hq, h.suits i s _ hs hq⟩

/-- A sender that does not wait for the service has asked it for nothing. -/
theorem Orderly.pending_eq (h : r.Orderly p) (hs : r.phase.senders[i]? = some s)
    (ha : s.asks = false) : r.pending[i]? = some .nothing := by
  obtain ⟨q, hq, hsuits⟩ := h.exists_pending hs
  cases q with
  | nothing => exact hq
  | dial due verdict =>
    have hasks := Sender.Dials.asks hsuits
    simp [ha] at hasks
  | reply due e =>
    have hasks := Sender.Sends.asks hsuits
    simp [ha] at hasks

theorem Orderly.lowers_meet (h : r.Orderly p) (hs : r.phase.senders[i]? = some s)
    (hq : r.pending[i]? = some .nothing) (he : s.Heeds p.retry r.phase.shared e) :
    Lowers p r (r.meet p i e) := by
  obtain ⟨horderly, hless⟩ := h.meet hs hq he
  exact ⟨horderly, by omega⟩

/-- A sender meets the answer to what it has asked for, and may ask again. -/
theorem Orderly.lowers_answer (h : r.Orderly p) (hs : r.phase.senders[i]? = some s) {q : Pending}
    (hq : r.pending[i]? = some q) (he : s.Heeds p.retry r.phase.shared e) :
    Lowers p r ((r.ask i .nothing).meet p i e) := by
  have hlt := (List.getElem?_eq_some_iff.mp hq).1
  have hask := effort_ask (p := p) .nothing hq
  have htwo : Pending.nothing.effort r.phase.shared.now = 2 := rfl
  obtain ⟨horderly, hless⟩ := (h.ask (q := .nothing) hs trivial).meet (e := e) hs
    (by simp [Run.ask, hlt]) he
  exact ⟨horderly, by omega⟩

/-- **Every turn leaves less to do.** -/
theorem Orderly.lowers_turn (h : r.Orderly p) (ht : r.turn p i = some r') : Lowers p r r' := by
  cases hs : r.phase.senders[i]? with
  | none => simp [turn, hs] at ht
  | some s =>
    have hturn := turns p hs
    rw [ht] at hturn
    cases hturn with
    | answered q e service hq he =>
      exact Lowers.of_service ((h.of_service service).lowers_answer hs hq he)
    | asked q service hq hsuits hdue =>
      exact ⟨(h.of_service service).ask hs hsuits, effort_ask_lt (r := { r with service }) hq hdue⟩
    | met e ha he => exact h.lowers_meet hs (h.pending_eq hs ha) he

/-! ### Moves that are no sender's -/

theorem Lowers.trans (h : Lowers p r r') {r'' : Run} (h' : Lowers p r' r'') : Lowers p r r'' :=
  ⟨h'.orderly, h'.less.trans h.less⟩

/-- What comes from outside leaves less to come. -/
theorem Orderly.lowers_letIn (h : r.Orderly p) (hl : r.letIn p = (true, r')) : Lowers p r r' := by
  rw [letIn] at hl
  split at hl
  · next due o outside hcons =>
    split at hl
    · have hstop : o = .stop := h.outside (due, o) (by simp [hcons])
      subst hstop
      rw [← (Prod.mk.inj hl).2]
      have hrank : Phase.rank p.retry
            { r.phase with shared := { r.phase.shared with stopping := true } }
          ≤ r.phase.rank p.retry := Nat.add_le_add_left (Nat.zero_le _) _
      refine ⟨⟨Phase.steady_step (m := .stop) rfl h.steady, ?_, h.length_eq, h.suits⟩, ?_⟩
      · exact fun o ho => h.outside o (by simp [hcons, show o ∈ outside from ho])
      · dsimp only at hrank
        simp only [effort, Run.move, Phase.step, hcons, List.map_cons, List.sum_cons]
        omega
    · cases hl
  · cases hl

/-- A move of the phase by which no sender does anything. -/
theorem Orderly.lowers_step (h : r.Orderly p) {phase : Phase ChaCha} {m : PhaseMove}
    (hstep : r.phase.step p.retry m = some phase) (hi : ¬ r.phase.Idle m)
    (hsenders : phase.senders = r.phase.senders)
    (hnow : phase.shared.now = r.phase.shared.now) : Lowers p r { r with phase } where
  orderly :=
    { steady := Phase.steady_step hstep h.steady
      outside := h.outside
      length_eq := hsenders ▸ h.length_eq
      suits := hsenders ▸ h.suits }
  less := by
    have hrank := Phase.rank_step hstep h.steady hi
    simp only [effort, hsenders, hnow]
    omega

theorem Orderly.lowers_release (h : r.Orderly p) (hholding : r.phase.holding = true) :
    Lowers p r (r.move p .release) := by
  have hstep : r.phase.step p.retry .release = some
      { r.phase with
        holding := false
        shared := { r.phase.shared with queue := r.phase.shared.queue.dropConsumer } } :=
    if_pos hholding
  rw [Run.move, hstep]
  exact h.lowers_step hstep id rfl rfl

theorem Orderly.lowers_produce (h : r.Orderly p) {phase : Phase ChaCha}
    (hproduce : r.phase.step p.retry .produce = some phase) : Lowers p r { r with phase } := by
  have hkeeps : phase.senders = r.phase.senders ∧ phase.shared.now = r.phase.shared.now := by
    cases Phase.does_of_step hproduce with
    | produce y hy => exact ⟨rfl, rfl⟩
  exact h.lowers_step hproduce id hkeeps.1 hkeeps.2

/-- The moments at which something is due: what was asked for, the ends of pauses, and what comes
next from outside. -/
theorem mem_dues {now : Moment} : now ∈ r.dues ↔
    (∃ q ∈ r.pending, q.due? = some now) ∨ (∃ s ∈ r.phase.senders, s.deadline? = some now) ∨
      ∃ o ∈ r.outside.take 1, o.1 = now := by
  simp only [dues, List.mem_append, List.mem_filterMap, List.mem_map, or_assoc]
  rfl

/-- **Time goes on to a moment that something has waited for.** -/
theorem Orderly.lowers_advance (h : r.Orderly p) {now : Moment} (hmem : now ∈ r.dues)
    (hlt : r.phase.shared.now < now) : Lowers p r (r.move p (.advance now)) := by
  have hstep : r.phase.step p.retry (.advance now) = some (r.phase.later now) := if_pos hlt
  have hmove : r.move p (.advance now) = { r with phase := r.phase.later now } := by
    rw [Run.move, hstep]
  have hrank := Phase.rank_advance hstep
  have hle := Nat.le_of_lt hlt
  have hasked : (r.pending.map (Pending.effort now)).sum
      ≤ (r.pending.map (Pending.effort r.phase.shared.now)).sum :=
    List.sum_le_sum fun q _ => q.effort_antitone hle
  have hpauses : Phase.total (pauseEffort now) r.phase.senders
      ≤ Phase.total (pauseEffort r.phase.shared.now) r.phase.senders :=
    List.sum_le_sum fun s _ => pauseEffort_antitone hle s
  have houtside : (r.outside.map fun o => 1 + ahead now o.1).sum
      ≤ (r.outside.map fun o => 1 + ahead r.phase.shared.now o.1).sum :=
    List.sum_le_sum fun o _ => Nat.add_le_add_left (ahead_antitone hle o.1) 1
  rw [hmove]
  refine ⟨⟨Phase.steady_step hstep h.steady, h.outside, h.length_eq, h.suits⟩, ?_⟩
  have heffort : effort p { r with phase := r.phase.later now }
      = 4 * r.phase.rank p.retry + (r.pending.map (Pending.effort now)).sum +
        Phase.total (pauseEffort now) r.phase.senders +
        (r.outside.map fun o => 1 + ahead now o.1).sum := by
    rw [← hrank]
    rfl
  rw [heffort, effort]
  rcases mem_dues.mp hmem with ⟨q, hq, hdue⟩ | ⟨s, hs, hdue⟩ | ⟨o, ho, rfl⟩
  · have hless := List.sum_lt_sum (Pending.effort now) (Pending.effort r.phase.shared.now)
      (fun q _ => q.effort_antitone hle) ⟨q, hq, Pending.effort_lt hlt hdue⟩
    omega
  · have hless := List.sum_lt_sum (pauseEffort now) (pauseEffort r.phase.shared.now)
      (fun s _ => pauseEffort_antitone hle s) ⟨s, hs, pauseEffort_lt hlt hdue⟩
    simp only [Phase.total] at hless ⊢
    omega
  · have hless := List.sum_lt_sum (fun o' : Moment × Outside => 1 + ahead o.1 o'.1)
      (fun o' => 1 + ahead r.phase.shared.now o'.1)
      (fun o' _ => Nat.add_le_add_left (ahead_antitone hle o'.1) 1)
      ⟨o, List.mem_of_mem_take ho, Nat.add_lt_add_left (ahead_self_lt hlt) 1⟩
    omega

end Run

end Clock

end LoadRig
