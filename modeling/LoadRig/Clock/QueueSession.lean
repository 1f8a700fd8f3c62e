import LoadRig.Queue
/-!
# A queue on a clock

A session with one queue: the producer puts items in, consumers that are told apart by numbers take
them, and either side can go away. Nothing else happens in between, so whoever has to wait waits for
all of the time that it has, and that time goes by on the clock of the session.

## Main definitions

* `LoadRig.Clock.QueueSession` — a queue, the consumers that are left, and the clock.
* `LoadRig.Clock.QueueSession.put`, `LoadRig.Clock.QueueSession.poll` — nothing if there is nobody
  to do it.
* `LoadRig.Clock.QueueSession.clone`, `LoadRig.Clock.QueueSession.drop`,
  `LoadRig.Clock.QueueSession.dropProducer`
-/

namespace LoadRig.Clock

/-- A queue, the consumers that are left, and the milliseconds that have gone by. -/
structure QueueSession (α : Type) where
  queue : Queue α
  consumers : List Nat
  now : Nat

namespace QueueSession

variable {α : Type}

/-- An empty queue with consumer zero. -/
def start (capacity : Nat) : QueueSession α :=
  { queue := .bounded capacity, consumers := [0], now := 0 }

/-- The producer puts an item in; while the queue is full it waits for some milliseconds. -/
def put (s : QueueSession α) (item : α) (patience : Nat) : Option (PutResult × QueueSession α) :=
  if !s.queue.producer then none
  else
    match s.queue.put item with
    | (.full, _) => some (.full, { s with now := s.now + patience })
    | (r, queue) => some (r, { s with queue })

/-- A consumer takes an item; while there may still come one it waits for some milliseconds. -/
def poll (s : QueueSession α) (id : Nat) (patience : Nat) : Option (Polled α × QueueSession α) :=
  if !s.consumers.contains id then none
  else
    match s.queue.poll with
    | (.empty, _) => some (.empty, { s with now := s.now + patience })
    | (r, queue) => some (r, { s with queue })

/-- A consumer goes away. -/
def drop (s : QueueSession α) (id : Nat) : Option (QueueSession α) :=
  if !s.consumers.contains id then none
  else
    some { s with queue := s.queue.dropConsumer, consumers := s.consumers.filter (· != id) }

/-- A consumer gets a companion, in place of one that had the same number. -/
def clone (s : QueueSession α) (id companion : Nat) : Option (QueueSession α) :=
  if !s.consumers.contains id then none
  else
    let s := { s with queue := s.queue.addConsumer }
    let s := (s.drop companion).getD s
    some { s with consumers := companion :: s.consumers }

/-- The producer goes away. -/
def dropProducer (s : QueueSession α) : Option (QueueSession α) :=
  if !s.queue.producer then none else some { s with queue := s.queue.dropProducer }

end QueueSession

end LoadRig.Clock
