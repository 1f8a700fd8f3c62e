import LoadRig.Producer
/-!
# A producer and its consumer

A producer at a queue with one consumer, and nobody else. Between two looks of the consumer the
producer goes on until it has ended or has to wait, so there is always as much in the queue as there
can be. When the consumer goes away the producer finds out with its next message.

## Main definitions

* `LoadRig.Clock.Supply` — the producer, the queue, and whether the consumer is there.
* `LoadRig.Clock.Supply.settle`, `LoadRig.Clock.Supply.poll`, `LoadRig.Clock.Supply.leave`
-/

namespace LoadRig.Clock

open LoadRig.Random

/-- A producer at a queue with one consumer. -/
structure Supply where
  producer : Producer ChaCha
  queue : Queue WorkItem
  attended : Bool
  now : Time.Instant

namespace Supply

/-- A producer that has not begun. -/
def start (generator : SeededGenerator) (requested capacity : Nat) (now : Time.Instant) : Supply :=
  { producer := .start generator requested, queue := .bounded capacity, attended := true, now }

/-- The producer goes on until it has ended or has to wait. -/
def settle (s : Supply) : Supply :=
  let (producer, queue) := s.producer.run s.now (s.producer.requested + 1) s.queue
  { s with producer, queue }

/-- The consumer takes a message. -/
def poll (s : Supply) : Polled WorkItem × Supply :=
  let (r, queue) := s.queue.poll
  (r, { s with queue })

/-- The consumer goes away, if it is there. -/
def leave (s : Supply) : Supply :=
  if s.attended then { s with queue := s.queue.dropConsumer, attended := false } else s

end Supply

end LoadRig.Clock
