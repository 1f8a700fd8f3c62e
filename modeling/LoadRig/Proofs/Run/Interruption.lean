import LoadRig.Proofs.Phase.Interruption
import LoadRig.Proofs.Run.Accounts
/-!
# Runs that are told to stop

A run can be told to stop at any time. The phase under way then comes to its end by the rules of
`Phase.Interrupted`, and if that phase is warmup, it is the last one.

## Main results

* `LoadRig.RunCourse.main_eq_none_of_told` — no main phase after a sign during warmup.
* `LoadRig.RunCourse.interrupted_of_told` — what becomes of every phase and of every run that is
  told to stop.
-/

namespace LoadRig

open LoadRig.Random

namespace RunCourse

variable {σ : Type} [WordSource σ] {c : Config} {shared : Shared}

/-- The warmup phase of a run. -/
def warmup : RunCourse σ c shared →
    PhaseRun σ (.ofConfig c) c.load (RunPlan.ofConfig c).warmup shared
  | warmupOnly warmup _ | cutShort warmup _ _ | full warmup _ _ _ _ => warmup

/-- **No main phase after a sign during warmup.** -/
theorem main_eq_none_of_told (x : RunCourse σ c shared)
    (h : shared.stopping = true ∨ PhaseMove.stop ∈ x.warmup.moves) :
    x.report.main = none ∧ x.moves = x.warmup.moves := by
  have hstop : x.warmup.last.shared.stopping = true := Phase.stopping_of_mem x.warmup.steps_eq h
  cases x with
  | warmupOnly warmup hplan | cutShort warmup hplan => exact ⟨rfl, rfl⟩
  | full warmup plan hplan hgo main =>
    rw [show warmup.last.shared.stopping = true from hstop] at hgo
    cases hgo

/-- **What becomes of every phase that is told to stop**, at any moment, and of every run whose
warmup is told to stop. -/
theorem interrupted_of_told (σ : Type) [WordSource σ] (settings : RetrySettings) (c : Config) :
    (∀ (shared : Shared) (capacity : Nat) (generator : MessageGenerator σ) (requested : Nat)
      (assignments : List (Nat × Nat)) (ms ns : List PhaseMove) (q r : Phase σ),
      (Phase.start shared capacity (.start generator requested) assignments).steps settings ms
        = some q → q.shared.stopping = true → q.steps settings ns = some r →
      q.Interrupted settings ns r) ∧
    ∀ (shared : Shared) (x : RunCourse σ c shared),
      shared.stopping = true ∨ PhaseMove.stop ∈ x.warmup.moves →
      x.report.main = none ∧ x.moves = x.warmup.moves := by
  refine ⟨fun shared capacity generator requested assignments ms ns q r hq hstop hr => ?_,
    fun shared x => x.main_eq_none_of_told⟩
  have htold : q.Told settings := ⟨Phase.steady_steps hq (Phase.steady_start ..), hstop⟩
  exact htold.interrupted hr

/-- The only sender of the warmup phase has its only message in its hand when the run is told to
stop. -/
def outward : List PhaseMove :=
  [.release, .produce, .produce, .sender 0 (.dialed (.ok ())), .sender 0 .looked, .stop]

/-- The message is acknowledged, and the sender closes its connection. -/
def homeward : List PhaseMove := [.sender 0 (.replied (.ok "ok") true), .sender 0 .closed]

/-- The warmup phase when it is told to stop. -/
def halfway : Phase WordStream :=
  ((Phase.ofPlan beginning (pairConfig 1).load (RunPlan.ofConfig (pairConfig 1)).warmup zeros).steps
    (.ofConfig (pairConfig 1)) outward).get (by decide)

/-- The warmup phase at its end. -/
def home : Phase WordStream := (halfway.steps (.ofConfig (pairConfig 1)) homeward).get (by decide)

theorem steps_outward : (Phase.ofPlan beginning (pairConfig 1).load
    (RunPlan.ofConfig (pairConfig 1)).warmup zeros).steps (.ofConfig (pairConfig 1)) outward
      = some halfway := (Option.some_get _).symm

theorem steps_homeward : halfway.steps (.ofConfig (pairConfig 1)) homeward = some home :=
  (Option.some_get _).symm

/-- A run that is told to stop during warmup. -/
def recalled : RunCourse WordStream (pairConfig 1) beginning :=
  .cutShort
    { generator := zeros
      moves := outward ++ homeward
      last := home
      steps_eq := Phase.steps_append steps_outward steps_homeward
      done := by decide }
    (by decide) (by decide)

/-- The sender records the message and leaves because its quota is done, and there is no main phase
though there was one in the plan. -/
theorem interrupted_of_recalled : PhaseMove.stop ∈ recalled.warmup.moves ∧
    recalled.report.main = none ∧ (RunPlan.ofConfig (pairConfig 1)).main ≠ none ∧
    halfway.Interrupted (.ofConfig (pairConfig 1)) homeward home ∧
    halfway.senders.map (·.inHand?.isSome) = [true] ∧
    (Phase.entriesOf 0 (halfway.shown (.ofConfig (pairConfig 1)) Phase.recordedBy homeward)).length
      = 1 ∧
    home.senders.map (·.exit?) = [some .quotaReached] := by
  obtain ⟨hphase, hrun⟩ := interrupted_of_told WordStream (.ofConfig (pairConfig 1)) (pairConfig 1)
  have hstop : PhaseMove.stop ∈ recalled.warmup.moves := by
    simp [recalled, warmup, outward]
  have hmain := (hrun beginning recalled (.inr hstop)).1
  have hinterrupted : halfway.Interrupted (.ofConfig (pairConfig 1)) homeward home :=
    hphase _ _ _ _ _ outward homeward halfway home steps_outward (by decide) steps_homeward
  exact ⟨hstop, hmain, by decide, hinterrupted, by decide, by decide, by decide⟩

end RunCourse

end LoadRig
