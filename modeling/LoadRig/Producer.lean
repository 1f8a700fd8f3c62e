import LoadRig.Generator
import LoadRig.Queue
/-!
# The producer side of a phase

A phase asks for a number of messages. Its producer makes them one after the other and puts each
into the queue, waiting where the queue is full with the message in its hand. It ends when all
messages are in the queue, or when no consumer is left; the message that could not be put in is lost
and not counted. When it ends it leaves the queue.

## Main definitions

* `LoadRig.ProducerReport` — how many messages were asked for and how many were put in.
* `LoadRig.Producer` — the producer under way; `LoadRig.Producer.step` puts in one message.
-/

namespace LoadRig

open LoadRig.Random

/-- How many messages were asked for and how many were put in. -/
structure ProducerReport where
  requested : Nat
  produced : Nat
deriving DecidableEq, Repr, Inhabited

/-- Whether some messages were not put in. -/
def ProducerReport.stoppedEarly (r : ProducerReport) : Bool := r.produced < r.requested

/-- A producer under way. -/
structure Producer (σ : Type) where
  generator : MessageGenerator σ
  requested : Nat
  produced : Nat := 0
  /-- A message that waits for a place in the queue. -/
  held : Option WorkItem := none
  finished : Bool := false

namespace Producer

variable {σ : Type} [WordSource σ]

/-- A producer that was asked for a number of messages. -/
def start (generator : MessageGenerator σ) (requested : Nat) : Producer σ :=
  { generator, requested }

/-- A producer that has nothing to do. -/
def idle (generator : MessageGenerator σ) : Producer σ :=
  { generator, requested := 0, finished := true }

/-- What was asked for and what was put in so far. -/
def report (p : Producer σ) : ProducerReport :=
  { requested := p.requested, produced := p.produced }

/-- The message that is to be put in next, and the producer with it in its hand. -/
def prepare (p : Producer σ) (now : Time.Instant) : WorkItem × Producer σ :=
  match p.held with
  | some item => (item, p)
  | none =>
    let (item, generator) := p.generator.next now
    (item, { p with generator, held := some item })

/-- One step: puts in the next message, takes it into its hand where the queue is full, or ends.
Nothing if the producer has ended or has to wait. -/
def step (now : Time.Instant) (p : Producer σ) (q : Queue WorkItem) :
    Option (Producer σ × Queue WorkItem) :=
  if p.finished then none
  else if p.produced = p.requested then some ({ p with finished := true }, q.dropProducer)
  else
    let (item, ready) := p.prepare now
    match q.put item with
    | (.done, q) => some ({ ready with held := none, produced := p.produced + 1 }, q)
    | (.closed, q) => some ({ ready with held := none, finished := true }, q.dropProducer)
    | (.full, _) => if p.held.isNone then some (ready, q) else none

/-- Steps until it has ended or has to wait, at most `fuel` of them. -/
def run (now : Time.Instant) : Nat → Producer σ → Queue WorkItem → Producer σ × Queue WorkItem
  | 0, p, q => (p, q)
  | fuel + 1, p, q =>
    match p.step now q with
    | none => (p, q)
    | some (p, q) => run now fuel p q

end Producer

end LoadRig
