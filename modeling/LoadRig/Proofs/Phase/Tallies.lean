import LoadRig.Proofs.Phase.History
/-!
# The tallies of a finished phase

The report of a phase gathers what four parties have kept: the reports of the senders, the counters,
the records, and the report of the producer. For every plan, every course of openings and messages,
every moment of a shutdown and every order of moves, they agree when the phase is done. A sender that
was brought down from outside has no report, so its part has to be added to that of the others; it
has brought to an end all that it took but one message at the most. Where nobody was brought down the
four agree as they stand.

## Main definitions

* `LoadRig.Phase.fallen` — the senders that were brought down.
* `LoadRig.TalliesAgree` — what the report of a phase says, with the part of the fallen senders.

## Main results

* `LoadRig.Phase.tallies_of_isDone` — the tallies of every finished phase agree.
* `LoadRig.Phase.tallies_without_fallen` — a run in which the reports alone do not add up.
-/

namespace LoadRig

open LoadRig.Random

/-- Whether a sender was brought down. -/
def Sender.hasFallen (s : Sender) : Bool :=
  match s.stage with
  | .crashed => true
  | _ => false

/-- The senders of a phase that were brought down. They have no reports. -/
def Phase.fallen {σ : Type} (p : Phase σ) : List Sender := p.senders.filter Sender.hasFallen

/-- The tallies of a phase agree, where `fallen` are the senders that left no report and `left` is
the number of messages that are still in the queue. -/
structure TalliesAgree (report : PhaseReport) (fallen : List Sender) (left : Nat) : Prop where
  present : report.senders.length + fallen.length = report.sendersStarted
  processed : (report.senders.map (·.processed)).sum + Phase.total Sender.concluded fallen
    = report.counters.attempted
  recorded : report.records.size = report.counters.attempted
  succeeded : (report.senders.map (·.succeeded)).sum + Phase.total Sender.succeeded fallen
    = report.counters.succeeded
  ok : report.records.count .ok = report.counters.succeeded
  failed : (report.senders.map (·.failed)).sum + Phase.total Sender.failed fallen
    = report.counters.failed
  fail : report.records.count .fail = report.counters.failed
  rooms : ∀ room, report.records.records.countP (·.room == room)
    = ((report.senders.filter (·.room == room)).map (·.processed)).sum
      + Phase.total (Phase.concludedIn room) fallen
  produced : report.producer.produced
    = (report.senders.map (·.processed)).sum + Phase.total Sender.processed fallen + left
  within : report.producer.produced ≤ report.messages

namespace Phase

variable {σ : Type} {settings : RetrySettings} {p : Phase σ}

/-! ### Sums over reports -/

/-- A sum over senders that are done is a sum over the reports of those that have one and over the
others. -/
theorem total_eq_reports {senders : List Sender} {f : Sender → Nat} {g : SenderReport → Nat}
    (hd : ∀ s ∈ senders, s.isDone = true)
    (hg : ∀ s ∈ senders, ∀ r, s.report? = some r → g r = f s) :
    total f senders = ((senders.filterMap Sender.report?).map g).sum
      + total f (senders.filter Sender.hasFallen) := by
  induction senders with
  | nil => rfl
  | cons s senders ih =>
    have ih := ih (fun s hs => hd s (.tail _ hs)) (fun s hs => hg s (.tail _ hs))
    have hds := hd s (.head _)
    have hgs := hg s (.head _)
    simp only [total] at ih ⊢
    cases hs : s.stage with
    | left exit =>
      have hr : s.report? = some { id := s.id, room := s.room, quota := s.quota,
                                   processed := s.processed, succeeded := s.succeeded,
                                   failed := s.failed, exit } := by simp [Sender.report?, hs]
      have hn : s.hasFallen = false := by simp [Sender.hasFallen, hs]
      rw [List.filterMap_cons_some hr, List.filter_cons_of_neg (by simp [hn])]
      simp only [List.map_cons, List.sum_cons, hgs _ hr, ih]
      omega
    | crashed =>
      have hr : s.report? = none := by simp [Sender.report?, hs]
      have hn : s.hasFallen = true := by simp [Sender.hasFallen, hs]
      rw [List.filterMap_cons_none hr, List.filter_cons_of_pos hn]
      simp only [List.map_cons, List.sum_cons, ih]
      omega
    | dialing | waiting | repairing | trying | closing => simp [Sender.isDone, hs] at hds

theorem sum_map_ite {α : Type} (c : α → Bool) (f : α → Nat) (l : List α) :
    (l.map fun a => if c a then f a else 0).sum = ((l.filter c).map f).sum := by
  induction l with
  | nil => rfl
  | cons a l ih =>
    rw [List.map_cons, List.sum_cons, ih, List.filter_cons]
    cases c a <;> simp

theorem total_add (f g : Sender → Nat) (senders : List Sender) :
    total (fun s => f s + g s) senders = total f senders + total g senders := by
  induction senders with
  | nil => rfl
  | cons s senders ih =>
    simp only [total, List.map_cons, List.sum_cons] at ih ⊢
    omega

theorem isDone_of_mem (hd : p.isDone = true) {s : Sender} (hs : s ∈ p.senders) :
    s.isDone = true :=
  List.all_eq_true.mp (Bool.and_eq_true_iff.mp hd).2 s hs

variable [WordSource σ]

/-- The books of a phase that is done are what its report says. -/
theorem Books.tallies (hb : p.Books) (hd : p.isDone = true) (plan : PhasePlan)
    (hplan : p.producer.requested = plan.messages) (began : Moment) :
    TalliesAgree (p.report plan began) p.fallen p.shared.queue.size := by
  have hdone : ∀ s ∈ p.senders, s.isDone = true := fun _ => isDone_of_mem hd
  have hconc : total Sender.concluded p.senders = p.shared.counters.attempted := by
    rw [Counters.attempted]
    rw [hb.succeeded, hb.failed, ← total_add]; rfl
  -- a sender that left has ended all that it took
  have hleft : ∀ s ∈ p.senders, ∀ r, s.report? = some r → r.processed = s.concluded := by
    intro s hs r hr
    obtain ⟨hp, -, -, -, -, -, hst⟩ := Sender.report?_eq hr
    exact hp.trans ((hb.sound s hs).of_left hst).1
  refine ⟨?_, ?_, ?_, ?_, hb.ok, ?_, hb.fail, ?_, ?_, ?_⟩
  · have hone := total_eq_reports (f := fun _ => 1) (g := fun _ => 1) hdone fun _ _ _ _ => rfl
    simp only [total, List.map_const', List.sum_replicate_nat, Nat.mul_one] at hone
    exact hone.symm
  · show ((p.senders.filterMap _).map _).sum + _ = p.shared.counters.attempted
    rw [← hconc]
    exact (total_eq_reports hdone hleft).symm
  · show p.shared.pool.records.length = p.shared.counters.attempted
    rw [length_eq_countP_outcome, hb.ok, hb.fail]; rfl
  · show ((p.senders.filterMap _).map _).sum + _ = p.shared.counters.succeeded
    rw [hb.succeeded]
    exact (total_eq_reports hdone fun s _ r hr => (Sender.report?_eq hr).2.1).symm
  · show ((p.senders.filterMap _).map _).sum + _ = p.shared.counters.failed
    rw [hb.failed]
    exact (total_eq_reports hdone fun s _ r hr => (Sender.report?_eq hr).2.2.1).symm
  · intro room
    show p.shared.pool.records.countP _ = _
    rw [hb.rooms, total_eq_reports (g := fun r => if r.room == room then r.processed else 0) hdone,
      sum_map_ite]
    · rfl
    · intro s hs r hr
      rw [hleft s hs r hr, (Sender.report?_eq hr).2.2.2.1]
      simp [concludedIn]
  · show p.producer.produced = _
    rw [hb.produced, Queue.length_toList,
      total_eq_reports hdone fun s _ r hr => (Sender.report?_eq hr).1]
    rfl
  · show p.producer.produced ≤ plan.messages
    rw [← hplan]
    exact hb.supply.within

/-! ### Runs of a plan -/

/-- The senders are numbered by their places. -/
theorem id_eq_of_getElem? {shared : Shared} {load : LoadConfig} {plan : PhasePlan}
    {generator : MessageGenerator σ} {ms : List PhaseMove}
    (h : (ofPlan shared load plan generator).steps settings ms = some p) {i : Nat} {s : Sender}
    (hi : p.senders[i]? = some s) : s.id = i := by
  have hr : p.roster[i]? = some (s.id, s.quota, s.room) := by simp [roster, hi]
  rw [roster_steps h, ofPlan, roster_start, List.getElem?_mapIdx] at hr
  obtain ⟨a, -, ha⟩ := Option.map_eq_some_iff.mp hr
  exact (Prod.mk.inj ha).1.symm

/-- **The tallies of every finished phase agree.** Whatever happens in a phase and in whatever order,
each message that was put in is taken by one sender or is left, in the order of the queue; every
sender has counted what it took; and when the phase is done, the reports of the senders, the
counters, the records and the report of the producer agree, where a sender that was brought down
counts with what it had brought to an end. -/
theorem tallies_of_isDone (shared : Shared) (load : LoadConfig) (plan : PhasePlan)
    (generator : MessageGenerator σ) (ms : List PhaseMove) (began : Moment)
    (h : (ofPlan shared load plan generator).steps settings ms = some p) (hd : p.isDone = true) :
    (ofPlan shared load plan generator).putIn settings ms
        = ((ofPlan shared load plan generator).takenOut settings ms).map Prod.snd
          ++ p.shared.queue.toList ∧
      (∀ s ∈ p.senders,
        ((ofPlan shared load plan generator).takenOut settings ms).countP (·.1 == s.id)
          = s.processed) ∧
      (∀ s ∈ p.fallen, s.concluded ≤ s.processed ∧ s.processed ≤ s.concluded + 1) ∧
      TalliesAgree (p.report plan began) p.fallen p.shared.queue.size := by
  have hb : p.Books := books_steps h (books_start ..)
  refine ⟨?_, ?_, ?_, hb.tallies hd plan (requested_steps h) began⟩
  · exact content_steps h
  · intro s hs
    obtain ⟨i, hi⟩ := List.mem_iff_getElem?.mp hs
    have hcount := countP_takenOut h i
    have hzero : ((ofPlan shared load plan generator).senders[i]?.map Sender.processed).getD 0 = 0 := by
      cases hs0 : (ofPlan shared load plan generator).senders[i]? with
      | none => rfl
      | some s0 =>
        obtain ⟨id, quota, room, rfl⟩ := eq_start_of_mem (List.mem_of_getElem? hs0)
        rfl
    rw [hzero, hi, Nat.zero_add] at hcount
    rw [id_eq_of_getElem? h hi]
    exact hcount.symm
  · intro s hs
    exact (hb.sound s (List.mem_filter.mp hs).1).concluded_le

/-! ### A sender that is brought down -/

/-- A plan for one sender and two messages. -/
def soloPlan : PhasePlan := { kind := .warmup, messages := 2, threads := 1 }

/-- The phase of one sender and two messages, drawn from words that are all zero. -/
def solo : Phase WordStream :=
  ofPlan { queue := .bounded 1 } {} soloPlan (.create 3 (.ofSize 5) { word := fun _ => 0, place := 0 })

/-- Two attempts at each message, without patience. -/
def soloSettings : RetrySettings := { maxAttempts := 2, baseBackoff := .zero, ackTimeout := .zero }

/-- The first message is acknowledged and the link closes; the sender takes the second message and
is brought down while it repairs its connection. -/
def fall : List PhaseMove :=
  [.release, .produce, .sender 0 (.dialed (.ok ())), .sender 0 .looked,
    .sender 0 (.replied (.ok "ok") false), .produce, .sender 0 .looked, .sender 0 .crashed, .produce]

/-- The phase after the fall of its sender. -/
def soloFallen : Phase WordStream := (solo.steps soloSettings fall).get (by decide)

theorem steps_fall : solo.steps soloSettings fall = some soloFallen := (Option.some_get _).symm

/-- With the part of the fallen sender the tallies of this run agree. -/
theorem tallies_of_fall : solo.steps soloSettings fall = some soloFallen ∧
    soloFallen.isDone = true ∧
    TalliesAgree (soloFallen.report soloPlan 0) soloFallen.fallen soloFallen.shared.queue.size :=
  have hd : soloFallen.isDone = true := by decide
  ⟨steps_fall, hd, (tallies_of_isDone _ _ soloPlan _ fall 0 steps_fall hd).2.2.2⟩

/-- Without it they do not: one message was counted and recorded, and no sender reports it. -/
theorem tallies_without_fallen : solo.steps soloSettings fall = some soloFallen ∧
    soloFallen.isDone = true ∧
    ¬ TalliesAgree (soloFallen.report soloPlan 0) [] soloFallen.shared.queue.size := by
  refine ⟨steps_fall, by decide, fun h => ?_⟩
  have hsum := h.processed
  revert hsum
  decide

end Phase

end LoadRig
