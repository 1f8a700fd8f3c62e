import LoadRig.Message.Item
import LoadRig.Queue
import LoadRig.Retry
import LoadRig.Samples
/-!
# Senders

A sender belongs to a room and has a quota. It opens a connection, takes messages from the queue of
its phase one at a time, tries each until it is acknowledged or given up, and records how each
ended. It leaves when its quota is done, when the queue is drained, or when the run is being shut
down, whichever comes first; a sender whose first connection fails leaves at once.

At the queue a shutdown goes before an item that is ready, so no message is taken once it has
begun. Before a message is tried, a connection that is not open is repaired; if that fails the first
attempt repairs it again, so that one outage can count as two repairs. A sender that is done with its
work closes its connection, which may take time, and only then lets go of the queue.

A sender is a machine like the message it tries: `Sender.step` says what an event makes of the sender
and of what it shares with the others. One event, `looked`, stands for a look at the queue and is
decided by the state alone.

## Main definitions

* `LoadRig.SenderExit`, `LoadRig.SenderReport` — how a sender ended.
* `LoadRig.Shared` — what the senders of a phase share.
* `LoadRig.Sender`, `LoadRig.SenderStage`, `LoadRig.SenderEvent`
* `LoadRig.Sender.step` — the machine.
-/

namespace LoadRig

/-- Why a sender left. -/
inductive SenderExit where
  | quotaReached
  /-- The producer had gone and the queue was empty before the quota was done. -/
  | queueDrained
  | shutdown
  /-- The first connection could not be opened; the whole quota is given up. -/
  | connectFailed (reason : String)
deriving DecidableEq, Repr

/-- What a sender did. -/
structure SenderReport where
  id : Nat
  room : Nat
  quota : Nat
  processed : Nat
  succeeded : Nat
  failed : Nat
  exit : SenderExit
deriving DecidableEq, Repr

/-- What the senders of a phase share: the clock, the sign of a shutdown, the queue, the counters
and the records. -/
structure Shared where
  now : Moment := 0
  /-- The world clock at the start of the run, in milliseconds since 1970. -/
  epoch : Int := 0
  stopping : Bool := false
  queue : Queue WorkItem
  counters : Counters := {}
  pool : SamplePool := {}

/-- The world clock in milliseconds since 1970. -/
def Shared.worldMillis (sh : Shared) : Int := sh.epoch + (sh.now / 1000000 : Nat)

/-- The world clock. -/
def Shared.instant (sh : Shared) : Time.Instant :=
  { seconds := sh.worldMillis.fdiv 1000, nanos := (sh.worldMillis.fmod 1000).toNat * 1000000 }

/-- A message that a sender tries: when the trying began on the clock of the run and on that of the
world, and how far it is. -/
structure Trial where
  item : WorkItem
  began : Moment
  sentAt : Int
  retry : Retry
deriving DecidableEq, Repr

/-- What a sender waits for. -/
inductive SenderStage where
  /-- Its first connection. -/
  | dialing
  /-- An item at the queue. -/
  | waiting
  /-- The repair of the connection, with an item in its hand. -/
  | repairing (item : WorkItem)
  /-- The end of a message. -/
  | trying (t : Trial)
  /-- The end of its connection, when its work is done. -/
  | closing (exit : SenderExit)
  | left (exit : SenderExit)
  /-- Brought down from outside. -/
  | crashed
deriving DecidableEq, Repr

/-- A sender under way. -/
structure Sender where
  id : Nat
  room : Nat
  quota : Nat
  processed : Nat := 0
  succeeded : Nat := 0
  failed : Nat := 0
  connection : Connection
  stage : SenderStage
deriving DecidableEq, Repr

/-- What can happen to a sender. -/
inductive SenderEvent where
  /-- An opening has ended. -/
  | dialed (r : Except ConnectError Unit)
  /-- It looks at the sign of a shutdown and at the queue. -/
  | looked
  /-- A message has been answered, or not. -/
  | replied (r : Except SendError String) (linkOpen : Bool)
  /-- A pause is over. -/
  | rested
  /-- A pause is cut short. -/
  | interrupted
  /-- The link has closed by itself. -/
  | lost
  /-- The connection has been given up in good order. -/
  | closed
  | crashed

namespace Sender

/-- A sender that has begun to open its connection. -/
def start (id quota room : Nat) : Sender :=
  { id, room, quota, connection := (Connection.disconnected room).dial, stage := .dialing }

/-- Whether a sender does nothing any more. -/
def isDone (s : Sender) : Bool :=
  match s.stage with
  | .left _ | .crashed => true
  | _ => false

/-- What a sender that has left did. -/
def report? (s : Sender) : Option SenderReport :=
  match s.stage with
  | .left exit =>
    some { id := s.id, room := s.room, quota := s.quota, processed := s.processed,
           succeeded := s.succeeded, failed := s.failed, exit }
  | _ => none

/-- The connection with the counters that it is charged to. -/
def line (sh : Shared) (s : Sender) : Line := { connection := s.connection, counters := sh.counters }

/-- Puts a charged connection back into its places. -/
def withLine (sh : Shared) (s : Sender) (l : Line) : Shared × Sender :=
  ({ sh with counters := l.counters }, { s with connection := l.connection })

/-- The sender leaves, and lets go of the queue. -/
def leave (exit : SenderExit) (sh : Shared) (s : Sender) : Shared × Sender :=
  ({ sh with queue := sh.queue.dropConsumer }, { s with stage := .left exit })

/-- The sender is done with its work and begins to close its connection. -/
def retire (exit : SenderExit) (s : Sender) : Sender := { s with stage := .closing exit }

/-- Goes to the queue, or retires if the quota is done. -/
def goOn (s : Sender) : Sender :=
  if s.processed < s.quota then { s with stage := .waiting } else s.retire .quotaReached

/-- Counts and records the end of a message. -/
def conclude (t : Trial) (o : SendOutcome) (sh : Shared) (s : Sender) : Shared × Sender :=
  let outcome := if o.isSuccess then Outcome.ok else .fail
  let record : SampleRecord :=
    { sentAt := t.sentAt, kind := t.item.kind, latency := (sh.now - t.began) / 1000000, outcome,
      room := s.room }
  let counters := if o.isSuccess then sh.counters.addSuccess else sh.counters.addFailure
  ({ sh with counters, pool := sh.pool.record record },
    (if o.isSuccess then { s with succeeded := s.succeeded + 1 }
    else { s with failed := s.failed + 1 }).goOn)

/-- Goes on with a message according to its state. -/
def follow (t : Trial) (status : RetryStatus) (sh : Shared) (s : Sender) : Shared × Sender :=
  match status with
  | .going retry => (sh, { s with stage := .trying { t with retry } })
  | .ended o => conclude t o sh s

/-- Begins to try a message. -/
def tryItem (settings : RetrySettings) (item : WorkItem) (sh : Shared) (s : Sender) :
    Shared × Sender :=
  let (l, status) := Retry.start settings (s.line sh)
  let (sh, s) := s.withLine sh l
  let t : Trial := { item, began := sh.now, sentAt := sh.worldMillis,
                     retry := { attempt := 0, stage := .sending } }
  follow t status sh s

/-- Takes a message on: repairs the connection first if it is not open. -/
def accept (settings : RetrySettings) (item : WorkItem) (sh : Shared) (s : Sender) :
    Shared × Sender :=
  let s := { s with processed := s.processed + 1 }
  if s.connection.isOpen then tryItem settings item sh s
  else
    let (sh, s) := s.withLine sh (s.line sh).redial
    (sh, { s with stage := .repairing item })

/-- Looks at the sign of a shutdown first, and then at the queue. -/
def look (settings : RetrySettings) (sh : Shared) (s : Sender) : Shared × Sender :=
  if sh.stopping then (sh, s.retire .shutdown)
  else
    match sh.queue.poll with
    | (.item item, queue) => accept settings item { sh with queue } s
    | (.drained, _) => (sh, s.retire .queueDrained)
    | (.empty, _) => (sh, s)

/-- What an event makes of a sender; nothing if the sender does not wait for it. -/
def step (settings : RetrySettings) (sh : Shared) (s : Sender) (e : SenderEvent) :
    Option (Shared × Sender) :=
  let message (t : Trial) (e : RetryEvent) : Option (Shared × Sender) :=
    (t.retry.step settings sh.now sh.stopping (s.line sh) e).map fun (l, status) =>
      let (sh, s) := s.withLine sh l
      follow t status sh s
  match e, s.stage with
  | .dialed r, .dialing =>
    let (sh, s) := s.withLine sh ((s.line sh).settle r)
    match r with
    | .ok _ => some (sh, s.goOn)
    | .error e => some (leave (.connectFailed e.message) sh s)
  | .dialed r, .repairing item =>
    let (sh, s) := s.withLine sh ((s.line sh).settle r)
    some (tryItem settings item sh s)
  | .dialed r, .trying t => message t (.dialed r)
  | .replied r linkOpen, .trying t => message t (.replied r linkOpen)
  | .rested, .trying t => message t .rested
  | .interrupted, .trying t => message t .interrupted
  | .looked, .waiting => some (look settings sh s)
  | .closed, .closing exit => some (leave exit sh { s with connection := s.connection.close })
  | .lost, _ => if s.isDone then none else some (sh, { s with connection := s.connection.lose })
  | .crashed, _ =>
    if s.isDone then none
    else some ({ sh with queue := sh.queue.dropConsumer }, { s with stage := .crashed })
  | _, _ => none

/-- Whether a look at the queue would change anything. -/
def hasReason (sh : Shared) : Bool :=
  sh.stopping || !sh.queue.isEmpty || !sh.queue.producer

end Sender

end LoadRig
