import LoadRig.Proofs.Phase.Tallies
import LoadRig.Proofs.Plan
/-!
# Everybody completes its own share

The shares of the senders of a phase do not exceed its messages, so there is a message for every
place in every share. A sender that finds the queue drained would have had to see the producer gone
and the queue empty before its own share was complete. But a producer that goes while a sender is
still there has put in every message; they have all been taken; and nobody takes more than its share.
So all shares are complete, its own as well.

Without a shutdown there are then two ways to leave: a sender completes its share, or it never gets
a connection and takes nothing. If everybody completes its share, the producer has put in every
message.

## Main definitions

* `LoadRig.Phase.Shares` — the invariant: books in order, shares within the messages, nobody drained.

## Main results

* `LoadRig.Phase.shares_step` — every move preserves it.
* `LoadRig.Phase.complete_of_steps` — the senders of every run of a plan.
* `LoadRig.Phase.incomplete_runs` — two runs that stop short of their messages.
-/

namespace LoadRig

open LoadRig.Random

/-- How a sender has left if there was no shutdown: without a connection and a message, or with its
share complete. -/
def SenderReport.InGoodOrder (r : SenderReport) : Prop :=
  (∃ reason, r.exit = .connectFailed reason ∧ r.processed = 0) ∨
    (r.exit = .quotaReached ∧ r.processed = r.quota)

namespace Phase

variable {σ : Type} {settings : RetrySettings} {p p' : Phase σ}

/-- The books of a phase are in order, the shares of its senders are within what its producer was
asked for, and no sender has left because the queue was drained. -/
structure Shares (p : Phase σ) : Prop where
  books : p.Books
  within : total Sender.quota p.senders ≤ p.producer.requested
  undrained : ∀ s ∈ p.senders, s.exit? ≠ some .queueDrained

/-- The shares are part of the roster. -/
theorem total_quota_eq_roster (p : Phase σ) :
    total Sender.quota p.senders = (p.roster.map fun r => r.2.1).sum := by
  simp [total, roster, Function.comp_def]

/-- A sender that is not done is one of the consumers of the queue. -/
theorem Books.consumers_pos (hb : p.Books) {s : Sender} (hs : s ∈ p.senders)
    (hd : s.isDone = false) : 0 < p.shared.queue.consumers := by
  have hle : holds s ≤ total holds p.senders :=
    List.single_le_sum (fun _ _ => Nat.zero_le _) _ (List.mem_map_of_mem hs)
  have hone : holds s = 1 := by simp [holds, hd]
  have hc := hb.consumers
  omega

/-- **While somebody has some of its share left, the queue is not drained.** -/
theorem Shares.not_drained (h : p.Shares) {s : Sender} (hs : s ∈ p.senders)
    (hst : s.stage = .waiting) (hq : p.shared.queue.toList = [])
    (hp : p.shared.queue.producer = false) : False := by
  have hpos := h.books.consumers_pos hs (by simp [Sender.isDone, hst])
  have hfin : p.producer.finished = true := by
    have hflag := h.books.supply.flag
    rw [hp] at hflag
    simpa using hflag.symm
  have hall : p.producer.produced = p.producer.requested :=
    (h.books.supply.ended hfin).resolve_right (by omega)
  have hlt : total Sender.processed p.senders < total Sender.quota p.senders := by
    refine List.sum_lt_sum _ _ (fun s' hs' => (h.books.sound s' hs').processed_le) ⟨s, hs, ?_⟩
    have hsound := h.books.sound s hs
    unfold Sender.Sound at hsound
    rw [hst] at hsound
    exact hsound.2
  have hprod := h.books.produced
  have hwithin := h.within
  rw [hq, List.length_nil] at hprod
  omega

theorem roster_ofPlan (shared : Shared) (load : LoadConfig) (plan : PhasePlan)
    (generator : MessageGenerator σ) :
    (ofPlan shared load plan generator).roster
      = plan.quotas.mapIdx fun id quota => (id, quota, roomFor id load.rooms) := by
  rw [ofPlan, roster_start, PhasePlan.assignments, List.mapIdx_mapIdx]
  rfl

theorem total_quota_ofPlan (shared : Shared) (load : LoadConfig) (plan : PhasePlan)
    (generator : MessageGenerator σ) :
    total Sender.quota (ofPlan shared load plan generator).senders = plan.quotas.sum := by
  rw [total_quota_eq_roster, roster_ofPlan]
  congr 1
  refine List.ext_getElem? fun i => ?_
  simp [Function.comp_def]

/-- Nobody has had its share yet, and the shares are within the messages. -/
theorem shares_ofPlan (shared : Shared) (load : LoadConfig) (plan : PhasePlan)
    (generator : MessageGenerator σ) : (ofPlan shared load plan generator).Shares where
  books := books_start ..
  within := (total_quota_ofPlan ..).trans_le plan.sum_quotas_le
  undrained := by
    intro s hs
    obtain ⟨id, quota, room, rfl⟩ := eq_start_of_mem hs
    simp [Sender.exit?, Sender.start]

theorem Shares.inGoodOrder (h : p.Shares) (hstop : p.shared.stopping = false) {s : Sender}
    (hs : s ∈ p.senders) {r : SenderReport} (hr : s.report? = some r) : r.InGoodOrder := by
  obtain ⟨hproc, -, -, -, -, hquota, hst⟩ := Sender.report?_eq hr
  have hexit : s.exit? = some r.exit := by simp [Sender.exit?, hst]
  have hfits := ((h.books.sound s hs).of_left hst).2
  rw [← hproc, ← hquota] at hfits
  cases hre : r.exit with
  | quotaReached => rw [hre] at hfits; exact .inr ⟨hre, hfits⟩
  | connectFailed reason => rw [hre] at hfits; exact .inl ⟨reason, hre, hfits⟩
  | queueDrained => exact absurd (hexit.trans (congrArg some hre)) (h.undrained s hs)
  | shutdown =>
    have hsign := h.books.told s hs (hexit.trans (congrArg some hre))
    rw [hstop] at hsign
    cases hsign

/-- If every sender has completed its share and the shares are all the messages, they have all been
put in. -/
theorem Shares.produced_eq (h : p.Shares)
    (hall : ∀ s ∈ p.senders, s.processed = s.quota)
    (hsum : total Sender.quota p.senders = p.producer.requested) :
    p.producer.produced = p.producer.requested := by
  have htotal : total Sender.processed p.senders = total Sender.quota p.senders :=
    congrArg List.sum (List.map_congr_left hall)
  have hprod := h.books.produced
  have hle := h.books.supply.within
  omega

/-- A sender that is done has a report or has fallen. -/
theorem exists_report {s : Sender} (hd : s.isDone = true) (hf : s.hasFallen = false) :
    ∃ r, s.report? = some r := by
  cases hs : s.stage with
  | left exit => exact ⟨_, by rw [Sender.report?, hs]⟩
  | crashed => simp [Sender.hasFallen, hs] at hf
  | dialing | waiting | repairing | trying | closing => simp [Sender.isDone, hs] at hd

section Runs

variable [WordSource σ]

theorem shares_step {m : PhaseMove} (h : p.step settings m = some p') (hp : p.Shares) :
    p'.Shares where
  books := books_step h hp.books
  within := by
    rw [total_quota_eq_roster, roster_step h, requested_step h, ← total_quota_eq_roster]
    exact hp.within
  undrained := by
    cases does_of_step h with
    | produce | release | stop | advance => exact hp.undrained
    | sender i e s y hi hy =>
      intro s' hs' hexit
      rcases List.mem_or_eq_of_mem_set hs' with hs' | rfl
      · exact hp.undrained s' hs' hexit
      · have hs := List.mem_of_getElem? hi
        rcases Sender.grounds_step hy hexit with hold | ⟨hst, hq, hprod⟩
        · exact hp.undrained s hs hold
        · exact hp.not_drained hs hst hq hprod

/-! ### Runs of a plan -/

/-- The sign of a shutdown comes from a move, or it was there at the beginning. -/
theorem stopping_of_steps {ms : List PhaseMove} (h : p.steps settings ms = some p')
    (hs : PhaseMove.stop ∉ ms) : p'.shared.stopping = p.shared.stopping := by
  induction ms generalizing p with
  | nil => rw [← Option.some.inj h]
  | cons m ms ih =>
    obtain ⟨q, hq, hrest⟩ := steps_cons h
    rw [ih hrest fun hmem => hs (.tail _ hmem)]
    cases does_of_step hq with
    | produce | release | advance => rfl
    | sender i e s y hi hy =>
      obtain ⟨ended, he⟩ := Sender.entered_step hy
      exact he.stopping_eq
    | stop => exact absurd (.head _) hs

theorem shares_steps {ms : List PhaseMove} (h : p.steps settings ms = some p') (hp : p.Shares) :
    p'.Shares :=
  steps_induction (fun _ _ _ => shares_step) h hp

/-- The quota of a sender is its share of the plan. -/
theorem quota_of_report {shared : Shared} {load : LoadConfig} {plan : PhasePlan}
    {generator : MessageGenerator σ} {ms : List PhaseMove}
    (h : (ofPlan shared load plan generator).steps settings ms = some p) {s : Sender}
    (hs : s ∈ p.senders) {r : SenderReport} (hr : s.report? = some r) :
    plan.quotas[r.id]? = some r.quota := by
  have hmem : (s.id, s.quota, s.room) ∈ p.roster := List.mem_map_of_mem hs
  rw [roster_steps h, roster_ofPlan] at hmem
  obtain ⟨i, hi, heq⟩ := List.mem_mapIdx.mp hmem
  obtain ⟨hid, hrest⟩ := Prod.mk.inj heq
  obtain ⟨hquota, -⟩ := Prod.mk.inj hrest
  obtain ⟨-, -, -, -, hrid, hrquota, -⟩ := Sender.report?_eq hr
  rw [hrid, hrquota, ← hid, ← hquota]
  exact List.getElem?_eq_getElem hi

/-- **Everybody completes its own share.** Whatever happens in a phase and in whatever order, no
sender finds the queue drained. If the phase is not told to stop, every sender that has left has
completed its share of the plan or never got a connection; and once the phase is done, its producer
has put in every message if there were workers, if all of them got a connection and if none of them
was brought down. -/
theorem complete_of_steps (shared : Shared) (load : LoadConfig) (plan : PhasePlan)
    (generator : MessageGenerator σ) (ms : List PhaseMove) (began : Moment)
    (hm : plan.messages < wideLimit)
    (h : (ofPlan shared load plan generator).steps settings ms = some p) :
    (∀ s ∈ p.senders, s.exit? ≠ some .queueDrained) ∧
      (shared.stopping = false → PhaseMove.stop ∉ ms →
        (∀ r ∈ (p.report plan began).senders,
          plan.quotas[r.id]? = some r.quota ∧ r.InGoodOrder) ∧
        (p.isDone = true → 0 < plan.threads → p.fallen = [] →
          (∀ r ∈ (p.report plan began).senders, ∀ reason, r.exit ≠ .connectFailed reason) →
          (p.report plan began).producer.produced = plan.messages)) := by
  have hp : p.Shares := shares_steps h (shares_ofPlan shared load plan generator)
  refine ⟨hp.undrained, fun hstop hmoves => ?_⟩
  have hstop : p.shared.stopping = false := (stopping_of_steps h hmoves).trans hstop
  refine ⟨fun r hr => ?_, fun hd ht hfallen hconn => ?_⟩
  · obtain ⟨s, hs, hr⟩ := List.mem_filterMap.mp hr
    exact ⟨quota_of_report h hs hr, hp.inGoodOrder hstop hs hr⟩
  · have hreq : p.producer.requested = plan.messages := requested_steps h
    have hsum : total Sender.quota p.senders = p.producer.requested := by
      rw [total_quota_eq_roster, roster_steps h, ← total_quota_eq_roster, total_quota_ofPlan,
        plan.sum_quotas hm ht, hreq]
    refine (hp.produced_eq (fun s hs => ?_) hsum).trans hreq
    -- everybody has a report, and everybody got a connection
    obtain ⟨r, hr⟩ := exists_report (isDone_of_mem hd hs) (by
      simpa using List.filter_eq_nil_iff.mp hfallen s hs)
    obtain ⟨hproc, -, -, -, -, hquota, -⟩ := Sender.report?_eq hr
    rcases hp.inGoodOrder hstop hs hr with ⟨reason, hexit, -⟩ | ⟨-, hall⟩
    · exact absurd hexit (hconn r (List.mem_filterMap.mpr ⟨s, hs, hr⟩) reason)
    · rw [← hproc, ← hquota, hall]

end Runs

/-! ### Runs that stop short -/

/-- The sender connects, takes both messages and closes its connection. -/
def work : List PhaseMove :=
  [.release, .produce, .produce, .produce, .sender 0 (.dialed (.ok ())), .sender 0 .looked,
    .sender 0 (.replied (.ok "ok") true), .sender 0 .looked, .sender 0 (.replied (.ok "ok") true),
    .sender 0 .closed]

/-- The phase after its work. -/
def soloWorked : Phase WordStream := (solo.steps soloSettings work).get (by decide)

theorem steps_work : solo.steps soloSettings work = some soloWorked := (Option.some_get _).symm

/-- The sender completes its share of two, and both messages were put in. -/
theorem complete_of_work : soloPlan.messages < wideLimit ∧
    solo.steps soloSettings work = some soloWorked ∧
    (∀ r ∈ (soloWorked.report soloPlan 0).senders, r.InGoodOrder) ∧
    (soloWorked.report soloPlan 0).producer.produced = soloPlan.messages := by
  have hm : soloPlan.messages < wideLimit := by decide
  obtain ⟨horder, hall⟩ :=
    (complete_of_steps _ _ soloPlan _ work 0 hm steps_work).2 rfl (by simp [work])
  refine ⟨hm, steps_work, fun r hr => (horder r hr).2, ?_⟩
  refine hall (by decide) (by decide) (by decide) fun r hr reason => ?_
  have hexit : ∀ r ∈ (soloWorked.report soloPlan 0).senders, r.exit = .quotaReached := by decide
  simp [hexit r hr]

/-- A plan for three messages and no sender at all. -/
def desertedPlan : PhasePlan := { kind := .main, messages := 3, threads := 0 }

/-- The phase of that plan. -/
def deserted : Phase WordStream :=
  ofPlan { queue := .bounded 1 } {} desertedPlan
    (.create 3 (.ofSize 5) { word := fun _ => 0, place := 0 })

/-- The sender connects, and is brought down with the first message in its hand. -/
def earlyFall : List PhaseMove :=
  [.release, .produce, .sender 0 (.dialed (.ok ())), .sender 0 .looked, .sender 0 .crashed, .produce]

/-- Two phases that are done, were never told to stop and in which no sender failed to connect, and
that still have not put in their messages: one without senders, and one whose only sender was brought
down. -/
theorem incomplete_runs :
    (∃ p, deserted.steps soloSettings [.release, .produce] = some p ∧ p.isDone = true ∧
      p.shared.stopping = false ∧ p.senders = [] ∧
      (p.report desertedPlan 0).producer.produced ≠ desertedPlan.messages) ∧
    ∃ p, solo.steps soloSettings earlyFall = some p ∧ p.isDone = true ∧
      p.shared.stopping = false ∧ p.shared.counters.connections = p.senders.length ∧
      (p.report soloPlan 0).producer.produced ≠ soloPlan.messages := by
  refine ⟨⟨(deserted.steps soloSettings [.release, .produce]).get (by decide),
      (Option.some_get _).symm, ?_⟩,
    ⟨(solo.steps soloSettings earlyFall).get (by decide), (Option.some_get _).symm, ?_⟩⟩
  · decide
  · decide

end Phase

end LoadRig
