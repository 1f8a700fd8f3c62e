import LoadRig.Plan
import LoadRig.Producer
import LoadRig.Sender
import LoadRig.Statistics
/-!
# A phase

A phase is a producer and a number of senders at one queue, with counters and records of its own. It
starts with every sender opening its connection and the phase itself still holding one end of the
queue; once it lets go of that, the queue has no consumers but the senders.

Everything that can happen is a move: the producer puts in a message, a sender meets an event, the
phase lets go of the queue, the run is told to stop, or time goes by. `Phase.step` says what a move
makes of the phase, and refuses a move that cannot happen. A run of the phase is any list of moves;
which moves are made when is left to whoever drives it, and nobody has to make haste. A driver is
prompt if it lets time go by only while nobody has anything to do at the present moment.

## Main definitions

* `LoadRig.Phase`, `LoadRig.PhaseMove`, `LoadRig.Phase.step`, `LoadRig.Phase.steps`
* `LoadRig.Phase.start`, `LoadRig.Phase.ofPlan` — the first state of a phase.
* `LoadRig.Phase.mayAdvance` — whether a prompt driver lets time go by.
* `LoadRig.Phase.isDone` — the producer and every sender have ended.
* `LoadRig.PhaseReport` — what came of it.
-/

namespace LoadRig

open LoadRig.Random

/-- A phase under way. -/
structure Phase (σ : Type) where
  shared : Shared
  producer : Producer σ
  senders : List Sender
  /-- Whether the phase itself still holds an end of the queue. -/
  holding : Bool

/-- What can happen in a phase. -/
inductive PhaseMove where
  | produce
  | release
  | sender (i : Nat) (e : SenderEvent)
  | stop
  | advance (now : Moment)

namespace Phase

variable {σ : Type} [WordSource σ]

/-- The first state of a phase with senders of the given quotas and rooms, whose queue has the
given capacity. -/
def start (shared : Shared) (capacity : Nat) (producer : Producer σ)
    (assignments : List (Nat × Nat)) : Phase σ :=
  let queue : Queue WorkItem := Queue.bounded capacity
  { shared :=
      { shared with
        queue := { queue with consumers := assignments.length + 1 }
        counters := {}
        pool := {} }
    producer
    senders := assignments.mapIdx fun id (quota, room) => Sender.start id quota room
    holding := true }

/-- The first state of a planned phase, whose messages come from a generator. -/
def ofPlan (shared : Shared) (load : LoadConfig) (plan : PhasePlan)
    (generator : MessageGenerator σ) : Phase σ :=
  start shared load.queueCapacity (.start generator plan.messages) (plan.assignments load.rooms)

/-- Whether everybody has ended. -/
def isDone (p : Phase σ) : Bool := p.producer.finished && p.senders.all (·.isDone)

/-- Whether a sender has nothing to do until something comes from outside or its pause is over, at
a moment no later than `now`. -/
def restful (sh : Shared) (now : Moment) (s : Sender) : Bool :=
  match s.stage with
  | .waiting => !Sender.hasReason sh
  | .trying t =>
    match t.retry.stage with
    | .resting _ deadline => !sh.stopping && now ≤ deadline
    | _ => true
  | _ => true

/-- Whether nobody has anything to do before `now`, so that a prompt driver lets time go by until
then. -/
def mayAdvance (p : Phase σ) (now : Moment) : Bool :=
  p.shared.now < now && !p.holding && (p.producer.step p.shared.instant p.shared.queue).isNone &&
    p.senders.all (restful p.shared now)

/-- What a move makes of a phase; nothing if the move cannot happen. -/
def step (settings : RetrySettings) (p : Phase σ) : PhaseMove → Option (Phase σ)
  | .produce =>
    (p.producer.step p.shared.instant p.shared.queue).map fun (producer, queue) =>
      { p with producer, shared := { p.shared with queue } }
  | .release =>
    if p.holding then
      some { p with
        holding := false
        shared := { p.shared with queue := p.shared.queue.dropConsumer } }
    else none
  | .sender i e =>
    match p.senders[i]? with
    | none => none
    | some s =>
      (s.step settings p.shared e).map fun (shared, s) =>
        { p with shared, senders := p.senders.set i s }
  | .stop => some { p with shared := { p.shared with stopping := true } }
  | .advance now =>
    if p.shared.now < now then some { p with shared := { p.shared with now } } else none

/-- What a list of moves makes of a phase. -/
def steps (settings : RetrySettings) (p : Phase σ) : List PhaseMove → Option (Phase σ)
  | [] => some p
  | m :: ms => (p.step settings m).bind fun p => p.steps settings ms

end Phase

/-! ### Reports -/

/-- A number of messages for each second of a time in nanoseconds; nothing over no time. -/
def perSecond (count nanos : Nat) : Float :=
  let seconds := countFloat (nanos / nanosPerSecond) + countFloat (nanos % nanosPerSecond) / 1000000000.0
  if seconds > 0.0 then countFloat count / seconds else 0.0

/-- What came of a phase. -/
structure PhaseReport where
  kind : PhaseKind
  messages : Nat
  sendersStarted : Nat
  counters : Counters
  elapsedMs : Nat
  throughput : Float
  producer : ProducerReport
  senders : List SenderReport
  records : RecordSet
deriving Inhabited

/-- The time since a moment, in nanoseconds. Work takes no time on the clock of a run, but it does
take some, so there is always a nanosecond at least. -/
def timeSince (began now : Moment) : Nat := max (now - began) 1

/-- The report of a phase that was planned as `plan` and began at `began`. Senders that were brought
down have no report. -/
def Phase.report {σ : Type} [WordSource σ] (p : Phase σ) (plan : PhasePlan) (began : Moment) :
    PhaseReport :=
  let elapsed := timeSince began p.shared.now
  { kind := plan.kind
    messages := plan.messages
    sendersStarted := p.senders.length
    counters := p.shared.counters
    elapsedMs := elapsed / 1000000
    throughput := perSecond p.shared.counters.succeeded elapsed
    producer := p.producer.report
    senders := p.senders.filterMap (·.report?)
    records := p.shared.pool.snapshot }

/-- What came of all phases together. -/
structure OverallSummary where
  counters : Counters
  elapsedMs : Nat
  throughput : Float
deriving Inhabited

/-- What came of a run. -/
structure RunReport where
  warmup : PhaseReport
  main : Option PhaseReport
  overall : OverallSummary
  records : RecordSet
deriving Inhabited

/-- The report of a run from those of its phases and its time in nanoseconds. -/
def RunReport.ofPhases (warmup : PhaseReport) (main : Option PhaseReport) (elapsed : Nat) :
    RunReport :=
  let counters := warmup.counters + (main.map (·.counters)).getD {}
  { warmup
    main
    overall :=
      { counters, elapsedMs := elapsed / 1000000, throughput := perSecond counters.succeeded elapsed }
    records := RecordSet.concat (warmup.records :: (main.map (·.records)).toList) }

end LoadRig
