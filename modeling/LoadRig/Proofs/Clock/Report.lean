import LoadRig.Proofs.Clock.Ending
import LoadRig.Proofs.Run.Accounts
import Mathlib.Algebra.BigOperators.Ring.List
import Mathlib.Tactic.Ring
/-!
# Whole runs on a virtual clock

The rounds that a run allows itself are enough: they cover what the messages of its plan can cost, what
its senders have to do besides, and what comes from outside. So a planned phase on the clock comes to
its end, and the runs on the clock are whole runs as any other. What is known of the report of every run
is known of theirs.

## Main results

* `LoadRig.Clock.Run.effort_begin_le` — a run allows itself enough rounds.
* `LoadRig.Clock.phaseRun_of_runPhase` — a planned phase on the clock is a run of that phase.
* `LoadRig.Clock.course_of_runAll` — every run on the clock is a whole run.
* `LoadRig.Clock.accounts_of_runAll`, `LoadRig.Clock.complete_of_runAll` — so its report is right.
-/

namespace LoadRig.Clock

open LoadRig.Random

namespace Run

/-! ### The beginning -/

section Start

variable (p : Patience) (shared : Shared) (load : LoadConfig) (plan : PhasePlan)
  (generator : SeededGenerator) (service : Service) (outside : List (Moment × Outside))

/-- A planned phase on the clock, at its beginning. -/
def begin : Run :=
  let phase := Phase.ofPlan shared load plan generator
  { phase, service, pending := phase.senders.map fun _ => .nothing, outside }

theorem orderly_begin (h : OnlyStops outside) :
    (begin shared load plan generator service outside).Orderly p where
  steady := Phase.steady_start ..
  outside := h
  length_eq := List.length_map _
  suits := by
    intro i s q _ hq
    rw [begin, List.getElem?_map] at hq
    obtain ⟨_, -, rfl⟩ := Option.map_eq_some_iff.mp hq
    exact trivial

/-- The senders of a planned phase have no more to do than its messages cost, and six each. -/
theorem total_weight_ofPlan (K : Nat) :
    Phase.total (Sender.weight K) (Phase.ofPlan shared load plan generator).senders
      ≤ plan.messages * Sender.price K
        + (Phase.ofPlan shared load plan generator).senders.length * 6 := by
  have hquotas : Phase.total Sender.quota (Phase.ofPlan shared load plan generator).senders
      ≤ plan.messages := (Phase.total_quota_ofPlan ..).trans_le plan.sum_quotas_le
  calc Phase.total (Sender.weight K) (Phase.ofPlan shared load plan generator).senders
      = Phase.total (fun s => s.quota * Sender.price K + 6)
          (Phase.ofPlan shared load plan generator).senders := by
        refine congrArg List.sum (List.map_congr_left fun s hs => ?_)
        obtain ⟨id, quota, room, rfl⟩ := Phase.eq_start_of_mem hs
        rfl
    _ = Phase.total Sender.quota (Phase.ofPlan shared load plan generator).senders * Sender.price K
          + (Phase.ofPlan shared load plan generator).senders.length * 6 := by
        simp only [Phase.total, List.sum_map_add, List.sum_map_mul_right, List.map_const',
          List.sum_replicate_nat]
    _ ≤ _ := Nat.add_le_add_right (Nat.mul_le_mul_right _ hquotas) _

theorem rank_ofPlan_le (settings : RetrySettings) :
    (Phase.ofPlan shared load plan generator).rank settings
      ≤ 2 * plan.messages + 5 + (plan.messages * Sender.price settings.maxAttempts
        + (Phase.ofPlan shared load plan generator).senders.length * 6) := by
  have hweight := total_weight_ofPlan shared load plan generator settings.maxAttempts
  have hstop : (!shared.stopping).toNat ≤ 1 := Bool.toNat_le _
  show 2 * plan.messages + 1 + 2 + Phase.total (Sender.weight settings.maxAttempts)
    (Phase.ofPlan shared load plan generator).senders + 1 + (!shared.stopping).toNat ≤ _
  omega

/-- What the messages cost, and what comes from outside, is within the rounds. -/
theorem cost_le (messages outside K : Nat) :
    4 * (messages * Sender.price K) + 8 * messages + 2 * outside
      ≤ 32 * ((messages + outside + 1) * (K + 2)) := by
  have hout : outside ≤ outside * (K + 2) := Nat.le_mul_of_pos_right outside (Nat.succ_pos (K + 1))
  calc 4 * (messages * Sender.price K) + 8 * messages + 2 * outside
      = 24 * (messages * (K + 1)) + 8 * messages + 2 * outside := by
        rw [Sender.price]
        ring
    _ ≤ 32 * (messages * (K + 1) + messages + outside * (K + 2) + (K + 2)) := by omega
    _ = 32 * ((messages + outside + 1) * (K + 2)) := by ring

/-- **A run allows itself enough rounds.** -/
theorem effort_begin_le :
    (begin shared load plan generator service outside).effort p
      ≤ (begin shared load plan generator service outside).rounds p := by
  have hrank := rank_ofPlan_le shared load plan generator p.retry
  have hpending : ((begin shared load plan generator service outside).pending.map
        (Pending.effort shared.now)).sum
      = (Phase.ofPlan shared load plan generator).senders.length * 2 := by
    simp [begin, Pending.effort, Pending.due?]
  have hpauses : Phase.total (pauseEffort shared.now)
      (Phase.ofPlan shared load plan generator).senders = 0 :=
    Phase.total_start_eq_zero fun _ _ _ => rfl
  have houtside : (outside.map fun o => 1 + ahead shared.now o.1).sum ≤ outside.length * 2 :=
    calc (outside.map fun o => 1 + ahead shared.now o.1).sum
        ≤ (outside.map fun _ => 2).sum :=
          List.sum_le_sum fun o _ => Nat.add_le_add_left (ahead_le _ _) 1
      _ = outside.length * 2 := by rw [List.map_const', List.sum_replicate_nat]
  have hcost := cost_le plan.messages outside.length p.retry.maxAttempts
  show 4 * (Phase.ofPlan shared load plan generator).rank p.retry
      + ((begin shared load plan generator service outside).pending.map
          (Pending.effort shared.now)).sum
      + Phase.total (pauseEffort shared.now) (Phase.ofPlan shared load plan generator).senders
      + (outside.map fun o => 1 + ahead shared.now o.1).sum
    ≤ 32 * ((plan.messages + outside.length + 1) * (p.retry.maxAttempts + 2)
      + (Phase.ofPlan shared load plan generator).senders.length + 8)
  omega

end Start

end Run

/-! ### Whole runs -/

/-- **A planned phase on the clock** is a run of that phase by a prompt driver, and comes to its
end. -/
theorem phaseRun_of_runPhase (c : Config) (plan : PhasePlan) {course : Course} {shared : Shared}
    (hshared : course.shared = shared) (hc : Run.OnlyStops course.outside) :
    ∃ r : PhaseRun ChaCha (.ofConfig c) c.load plan shared,
      r.report = (runPhase c plan course).1 ∧ r.last.shared = (runPhase c plan course).2.shared ∧
      (Phase.ofPlan shared c.load plan r.generator).Throughout (.ofConfig c) Phase.Prompt r.moves ∧
      (PhaseMove.stop ∈ r.moves → course.outside ≠ []) ∧
      (runPhase c plan course).2.outside ⊆ course.outside := by
  subst hshared
  let generator := SeededGenerator.ofLoad c.load plan.kind.salt
  let run := Run.begin course.shared c.load plan generator course.service course.outside
  have horderly : run.Orderly (.ofConfig c) := Run.orderly_begin _ _ _ _ _ _ _ hc
  have hdone := horderly.isDone_drive (Run.effort_begin_le ..)
  have honward := Run.onward_finish (.ofConfig c) (r := run) hc
  obtain ⟨ms, hms, hprompt, hstop⟩ := honward.moves
  exact ⟨⟨generator, ms, _, hms, hdone⟩, rfl, rfl, hprompt, hstop, honward.outside⟩

/-- **Every run on the clock is a whole run**, in which the run was told to stop only if the sign came
from outside. -/
theorem course_of_runAll (c : Config) {course : Course} (hc : Run.OnlyStops course.outside) :
    ∃ r : RunCourse ChaCha c course.shared, r.report = (runAll c course).1 ∧
      (PhaseMove.stop ∈ r.moves → course.outside ≠ []) := by
  obtain ⟨warmup, hreport, hshared, -, hstop, hless⟩ :=
    phaseRun_of_runPhase c (RunPlan.ofConfig c).warmup rfl hc
  cases hplan : (RunPlan.ofConfig c).main with
  | none =>
    refine ⟨.warmupOnly warmup hplan, ?_, hstop⟩
    simp only [runAll, hplan, RunCourse.report, hreport, hshared]
  | some plan =>
    cases hstopping : warmup.last.shared.stopping with
    | true =>
      refine ⟨.cutShort warmup (by simp [hplan]) hstopping, ?_, hstop⟩
      rw [hshared] at hstopping
      simp only [runAll, hplan, RunCourse.report, hreport, hshared, hstopping, if_true]
    | false =>
      obtain ⟨main, hreport', hshared', -, hstop', -⟩ :=
        phaseRun_of_runPhase c plan hshared.symm fun o ho => hc o (hless ho)
      refine ⟨.full warmup plan hplan hstopping main, ?_, fun hmem => ?_⟩
      · rw [hshared] at hstopping
        simp only [runAll, hplan, RunCourse.report, hreport, hreport', hshared', hstopping,
          Bool.false_eq_true, if_false]
      · rcases List.mem_append.mp hmem with hmem | hmem
        · exact hstop hmem
        · exact fun hnone => hstop' hmem (List.subset_nil.mp (hnone ▸ hless))

theorem onlyStops_start (service : Service) (epoch : Int) (stopAt : Option Moment) :
    Run.OnlyStops (Course.start service epoch stopAt).outside := by
  intro o ho
  obtain ⟨moment, -, rfl⟩ := Option.map_eq_some_iff.mp (Option.mem_toList.mp ho)
  rfl

/-- **The accounts of every run on the clock**, whatever the service does and whenever the sign to
stop is given. -/
theorem accounts_of_runAll (c : Config) (service : Service) (epoch : Int)
    (stopAt : Option Moment) :
    (runAll c (.start service epoch stopAt)).1.Accounts c.load.totalMessages := by
  obtain ⟨r, hreport, -⟩ := course_of_runAll c (onlyStops_start service epoch stopAt)
  rw [← hreport]
  exact r.accounts

/-- **A run on the clock that nobody stops records every message**, unless something went wrong for a
sender. -/
theorem complete_of_runAll (c : Config) (hvalid : c.broken? = none)
    (htotal : c.load.totalMessages < wideLimit) (service : Service) (epoch : Int) :
    ∃ r : RunCourse ChaCha c (Course.start service epoch none).shared,
      r.report = (runAll c (.start service epoch none)).1 ∧
      ((∀ s ∈ r.senders, s.Fared) →
        (runAll c (.start service epoch none)).1.records.size = c.load.totalMessages) := by
  obtain ⟨r, hreport, hstop⟩ := course_of_runAll c (onlyStops_start service epoch none)
  refine ⟨r, hreport, fun hfared => ?_⟩
  rw [← hreport]
  exact (r.records_eq hvalid htotal rfl (fun hmem => hstop hmem rfl) hfared).1

end LoadRig.Clock
