import LoadRig.Link.Service
import LoadRig.Phase
/-!
# Runs on a virtual clock

A clock that only moves while everybody waits, and a service that says how long it takes for each
opening and each message, decide between them which moves of a phase happen and when. The run that
they pick is one of all possible runs: every change to the phase is made by `Phase.step`.

At one moment the producer goes on until it has to wait, and then one sender after the other goes on
until it has to wait, over and over until nobody has anything to do; then the clock goes to the next
moment at which something is due. So a sender that takes a message goes on to what becomes of it, be
it to its own end, before the producer or another sender has its turn. An opening that takes just as
long as it may succeeds. Things from outside, such as the sign to stop, come at moments that are given
beforehand.

## Main definitions

* `LoadRig.Clock.Pending` — what a sender has asked the service for.
* `LoadRig.Clock.Outside` — what comes from outside.
* `LoadRig.Clock.Run` — a phase, a service, and what is due.
* `LoadRig.Clock.Run.finish` — drives a run to its end.
* `LoadRig.Clock.runPhase`, `LoadRig.Clock.runAll` — a planned phase, and a whole run.
* `LoadRig.Clock.runSenders` — senders one after the other at a queue that is filled from outside.
-/

namespace LoadRig.Clock

open LoadRig.Random

/-- What a sender has asked for and not got yet. -/
inductive Pending where
  | nothing
  /-- An opening that ends, or is given up where there is no verdict. -/
  | dial (due : Moment) (verdict : Option Verdict)
  | reply (due : Moment) (e : Exchange)

/-- The moment at which a request is answered. -/
def Pending.due? : Pending → Option Moment
  | nothing => none
  | dial due _ => some due
  | reply due _ => some due

/-- What comes from outside. -/
inductive Outside where
  | put (item : WorkItem)
  | dropProducer
  | stop

/-- The patience of a run. -/
structure Patience where
  retry : RetrySettings
  connectTimeout : Duration

/-- The patience that a configuration asks for. -/
def Patience.ofConfig (c : Config) : Patience :=
  { retry := .ofConfig c, connectTimeout := c.target.connectTimeout }

/-- A phase, the service that its senders talk to, what each sender has asked for, and what is
still to come from outside. -/
structure Run where
  phase : Phase ChaCha
  service : Service
  pending : List Pending
  outside : List (Moment × Outside)

namespace Run

/-- Makes a move, if it can be made. -/
def move (p : Patience) (r : Run) (m : PhaseMove) : Run :=
  match r.phase.step p.retry m with
  | some phase => { r with phase }
  | none => r

/-- A sender meets an event. A connection that it closes then is closed at once. -/
def meet (p : Patience) (r : Run) (i : Nat) (e : SenderEvent) : Run :=
  let r := r.move p (.sender i e)
  match r.phase.senders[i]? with
  | some { stage := .closing _, .. } => r.move p (.sender i .closed)
  | _ => r

/-- Sets what a sender has asked for. -/
def ask (r : Run) (i : Nat) (q : Pending) : Run := { r with pending := r.pending.set i q }

/-- A sender asks for its connection to be opened. -/
def askDial (p : Patience) (r : Run) (i : Nat) (s : Sender) : Run :=
  let now := r.phase.shared.now
  let patience := p.connectTimeout.toNanos
  let (dial, service) := r.service.dial s.room
  let r := { r with service }
  match dial with
  | .never => r.ask i (.dial (now + patience) none)
  | .after nanos verdict =>
    if nanos ≤ patience then r.ask i (.dial (now + nanos) (some verdict))
    else r.ask i (.dial (now + patience) none)

/-- A sender gets what has become of its opening. -/
def giveDial (p : Patience) (r : Run) (i : Nat) (s : Sender) (verdict : Option Verdict) : Run :=
  let r := r.ask i .nothing
  match verdict with
  | some v =>
    let (result, service) := r.service.settle s.room v
    let r := { r with service }
    match result with
    | some result => r.meet p i (.dialed result)
    | none => r.meet p i .crashed
  | none =>
    let url := r.service.target.endpoint s.room
    r.meet p i (.dialed (.error (.timeout url p.connectTimeout)))

/-- A sender asks for its message to be sent. -/
def askSend (p : Patience) (r : Run) (i : Nat) (s : Sender) (t : Trial) : Run :=
  let (e, service) := r.service.send s.connection.isOpen t.item.payload p.retry.ackTimeout
  { r with service }.ask i (.reply (r.phase.shared.now + e.after) e)

/-- The turn of a sender that waits for an opening. -/
def turnDialing (p : Patience) (r : Run) (i : Nat) (s : Sender) : Option Run :=
  match r.pending[i]? with
  | some (.dial due verdict) =>
    if due ≤ r.phase.shared.now then some (r.giveDial p i s verdict) else none
  | some .nothing => some (r.askDial p i s)
  | _ => none

/-- The turn of a sender; nothing if there is nothing for it to do at this moment. -/
def turn (p : Patience) (r : Run) (i : Nat) : Option Run :=
  match r.phase.senders[i]? with
  | none => none
  | some s =>
    let now := r.phase.shared.now
    match s.stage with
    | .dialing => r.turnDialing p i s
    | .repairing _ => r.turnDialing p i s
    | .waiting =>
      if Sender.hasReason r.phase.shared then some (r.meet p i .looked) else none
    | .trying t =>
      match t.retry.stage with
      | .dialing => r.turnDialing p i s
      | .sending =>
        match r.pending[i]? with
        | some (.reply due e) =>
          if due ≤ now then
            some ((r.ask i .nothing).meet p i (.replied e.answer e.linkOpen))
          else none
        | some .nothing => some (r.askSend p i s t)
        | _ => none
      | .resting _ deadline =>
        if r.phase.shared.stopping then some (r.meet p i .interrupted)
        else if deadline ≤ now then some (r.meet p i .rested)
        else none
    | .closing _ => some (r.meet p i .closed)
    | .left _ => none
    | .crashed => none

/-- A sender goes on until there is nothing for it to do at this moment, for at most so many turns. -/
def goOn (p : Patience) (i : Nat) : Nat → Run → Run
  | 0, r => r
  | fuel + 1, r =>
    match r.turn p i with
    | some r => goOn p i fuel r
    | none => r

/-- Every sender, in order, gets its turn and goes on from there for at most `fuel` more; the flag
tells whether anything was done. -/
def round (p : Patience) (fuel : Nat) (r : Run) : Bool × Run :=
  (List.range r.phase.senders.length).foldl
    (fun acc i =>
      match acc.2.turn p i with
      | some r => (true, r.goOn p i fuel)
      | none => acc) (false, r)

/-- Lets in what comes from outside now. -/
def letIn (p : Patience) (r : Run) : Bool × Run :=
  match r.outside with
  | (due, o) :: outside =>
    if due ≤ r.phase.shared.now then
      let r := { r with outside }
      let queue := r.phase.shared.queue
      (true, match o with
        | .stop => r.move p .stop
        | .put item =>
          { r with phase := { r.phase with shared := { r.phase.shared with
              queue := (queue.put item).2 } } }
        | .dropProducer =>
          { r with phase := { r.phase with shared := { r.phase.shared with
              queue := queue.dropProducer } } })
    else (false, r)
  | [] => (false, r)

/-- The moments at which something is due. -/
def dues (r : Run) : List Moment :=
  r.pending.filterMap (·.due?) ++
    r.phase.senders.filterMap (fun s =>
      match s.stage with
      | .trying t =>
        match t.retry.stage with
        | .resting _ deadline => some deadline
        | _ => none
      | _ => none) ++
    (r.outside.take 1).map (·.1)

/-- One round of the clock: whatever can be done at this moment, or else the step to the next one.
Nothing if nothing will ever happen. The senders get their turns when the producer has to wait. -/
def tick (p : Patience) (fuel : Nat) (r : Run) : Option Run :=
  match r.letIn p with
  | (true, r) => some r
  | (false, _) =>
    if r.phase.holding then some (r.move p .release)
    else
      match r.phase.step p.retry .produce with
      | some phase => some { r with phase }
      | none =>
        match r.round p fuel with
        | (true, r) => some r
        | (false, _) =>
          match (r.dues.filter (r.phase.shared.now < ·)).min? with
          | some now =>
            if r.phase.mayAdvance now then some (r.move p (.advance now)) else none
          | none => none

/-- Drives a run until everybody has ended or nothing will happen, for at most so many rounds, each
with at most so many turns in a row for a sender. -/
def drive (p : Patience) : Nat → Run → Run
  | 0, r => r
  | fuel + 1, r =>
    if r.phase.isDone then r
    else
      match r.tick p fuel with
      | some r => drive p fuel r
      | none => r

/-- More rounds than a run can take: a few for each attempt at each message, for each sender, and
for each thing from outside. -/
def rounds (p : Patience) (r : Run) : Nat :=
  let items := r.phase.producer.requested + r.phase.shared.queue.size + r.outside.length
  32 * ((items + 1) * (p.retry.maxAttempts + 2) + r.phase.senders.length + 8)

/-- Drives a run to its end. -/
def finish (p : Patience) (r : Run) : Run := r.drive p (r.rounds p)

end Run

/-! ### Phases and whole runs -/

/-- What is carried from one phase to the next: the clock with the sign to stop, the service, and
what is still to come from outside. -/
structure Course where
  shared : Shared
  service : Service
  outside : List (Moment × Outside)

/-- A course that begins now. `stopAt` is the moment of the sign to stop. -/
def Course.start (service : Service) (epoch : Int) (stopAt : Option Moment) : Course :=
  { shared := { epoch, queue := .bounded 1 }
    service
    outside := (stopAt.map (·, Outside.stop)).toList }

/-- Runs a planned phase to its end. -/
def runPhase (c : Config) (plan : PhasePlan) (course : Course) : PhaseReport × Course :=
  let phase := Phase.ofPlan course.shared c.load plan (SeededGenerator.ofLoad c.load plan.kind.salt)
  let run : Run :=
    { phase
      service := course.service
      pending := phase.senders.map fun _ => .nothing
      outside := course.outside }
  let run := run.finish (.ofConfig c)
  (run.phase.report plan course.shared.now,
    { shared := run.phase.shared, service := run.service, outside := run.outside })

/-- Runs the phases of a configuration. The main phase is left out if warmup covers all messages,
or if the run has been told to stop by the end of warmup. -/
def runAll (c : Config) (course : Course) : RunReport × Course :=
  let plan := RunPlan.ofConfig c
  let began := course.shared.now
  let (warmup, course) := runPhase c plan.warmup course
  let (main, course) :=
    match plan.main with
    | some main =>
      if course.shared.stopping then (none, course)
      else
        let (main, course) := runPhase c main course
        (some main, course)
    | none => (none, course)
  (.ofPhases warmup main (timeSince began course.shared.now), course)

/-! ### Senders one after the other -/

/-- A sender that runs by itself at the queue of a course until it ends. -/
def runSender (p : Patience) (course : Course) (id quota room : Nat) : Sender × Course :=
  let queue := course.shared.queue.addConsumer
  let sender := Sender.start id quota room
  let run : Run :=
    { phase :=
        { shared := { course.shared with queue }
          producer := .idle (SeededGenerator.ofSeed 1 (.ofSize 1) 0)
          senders := [sender]
          holding := false }
      service := course.service
      pending := [.nothing]
      outside := course.outside }
  let run := run.finish p
  ((run.phase.senders.head?).getD sender,
    { shared := run.phase.shared, service := run.service, outside := run.outside })

/-- Senders with the given quotas and rooms, one after the other, numbered from zero, each with the
moment of its end. -/
def runSenders (p : Patience) (course : Course) (assignments : List (Nat × Nat)) :
    List (Sender × Moment) × Course :=
  let (ended, course, _) := assignments.foldl
    (fun (ended, course, id) (quota, room) =>
      let (s, course) := runSender p course id quota room
      ((s, course.shared.now) :: ended, course, id + 1))
    (([] : List (Sender × Moment)), course, 0)
  (ended.reverse, course)

end LoadRig.Clock
