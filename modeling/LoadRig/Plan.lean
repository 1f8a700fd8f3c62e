import LoadRig.Config.Basic
/-!
# The plan of a run

A run has a warmup phase and, if warmup does not cover all messages, a main phase. The messages of
a phase are shared out evenly over its workers; the first workers take one more where the division
leaves a remainder, and workers whose share would be nothing are left out. Rooms are given to
workers in turn.

## Main definitions

* `LoadRig.PhaseKind`, `LoadRig.PhasePlan`, `LoadRig.RunPlan`
* `LoadRig.splitQuota` — the share of one worker; `LoadRig.PhasePlan.quotas` lists them.
* `LoadRig.roomFor` — the room of a worker; `LoadRig.PhasePlan.assignments` lists both.
-/

namespace LoadRig

/-- The two phases. -/
inductive PhaseKind where
  | warmup
  | main
deriving DecidableEq, Repr, Inhabited

namespace PhaseKind

/-- The name of a phase. -/
def name : PhaseKind → String
  | warmup => "warmup"
  | main => "main"

/-- The phase with a given name. -/
def ofName? (s : String) : Option PhaseKind := [warmup, main].find? (·.name == s)

/-- What is added to the seed, so that the phases do not send the same messages. -/
def salt : PhaseKind → Nat
  | warmup => 0
  | main => 1

end PhaseKind

/-- The share of worker `idx` of `workers` in `total`. A share stops at the greatest number of
sixty-four bits; without workers there is none. -/
def splitQuota (total workers idx : Nat) : Nat :=
  if workers = 0 then 0
  else if idx < total % workers then min (total / workers + 1) wordMax
  else total / workers

/-- The room of worker `idx`; rooms are numbered from one. -/
def roomFor (idx rooms : Nat) : Nat := idx % max rooms 1 + 1

/-- How many messages a phase sends, with how many workers. -/
structure PhasePlan where
  kind : PhaseKind
  messages : Nat
  threads : Nat
deriving DecidableEq, Repr, Inhabited

/-- The shares of the workers of a phase, up to the first that would have nothing to do. -/
def PhasePlan.quotas (p : PhasePlan) : List Nat :=
  ((List.range p.threads).map (splitQuota p.messages p.threads)).takeWhile (0 < ·)

/-- The quota and the room of each worker of a phase. -/
def PhasePlan.assignments (p : PhasePlan) (rooms : Nat) : List (Nat × Nat) :=
  p.quotas.mapIdx fun idx quota => (quota, roomFor idx rooms)

/-- The phases of a run. -/
structure RunPlan where
  warmup : PhasePlan
  main : Option PhasePlan
deriving DecidableEq, Repr, Inhabited

/-- The plan that a configuration asks for. -/
def RunPlan.ofConfig (c : Config) : RunPlan :=
  { warmup := { kind := .warmup, messages := c.warmupTotal, threads := c.warmup.threads }
    main :=
      if 0 < c.mainTotal then
        some { kind := .main, messages := c.mainTotal, threads := c.mainPhase.threads }
      else none }

/-- All messages of a plan. -/
def RunPlan.totalMessages (p : RunPlan) : Nat :=
  p.warmup.messages + (p.main.map (·.messages)).getD 0

end LoadRig
