import LoadRig.Proofs.Link.Mock
import LoadRig.Proofs.Moves
import LoadRig.Proofs.Sender.Message
/-!
# A sender in an outage

A sender that is alone with the stand-in while this closes its links instead of acknowledgements. The
stand-in decides what becomes of an opening and of a message; the producer puts messages into the
queue as it likes, as long as there are enough for the sender in the end, and time goes by as it
likes. Nobody is told to stop, and nobody is brought down.

`Outage.step` takes a sender from `Sender.step` and the stand-in from `MockService.handshake` and
`MockService.send`, so nothing is said here of either that is not said there.

## Main definitions

* `LoadRig.Outage`, `LoadRig.OutageMove`
* `LoadRig.Outage.step`, `LoadRig.Outage.steps` — what moves make of an outage.
* `LoadRig.Outage.Does` — the moves, case by case.
* `LoadRig.Outage.Orderly` — what every move keeps of the parties.

## Main results

* `LoadRig.Outage.does_of_step` — what a move can make of an outage.
* `LoadRig.Outage.orderly_step` — every move keeps an outage in good order.
-/

namespace LoadRig

/-- A sender and what it shares with its producer, the stand-in that it talks to, and what has become
of its message, if it has been written. -/
structure Outage where
  shared : Shared
  sender : Sender
  mock : MockService
  answer : Option Exchange := none

/-- What can happen. -/
inductive OutageMove where
  /-- An opening ends as the stand-in decides. -/
  | opens
  /-- The sender looks at the queue. -/
  | looks
  /-- The message of an attempt is written to the link. -/
  | writes
  /-- The sender learns what has become of its message. -/
  | answers
  /-- A pause is over. -/
  | rests
  /-- The connection has been given up in good order. -/
  | closes
  /-- The producer puts a message in. -/
  | supplies (item : WorkItem)
  /-- The producer goes away. -/
  | ends
  /-- Time goes by. -/
  | later (now : Moment)

namespace Outage

/-- A sender that has begun to open its connection, at an empty queue. -/
def start (epoch : Int) (capacity id quota room : Nat) (mock : MockService) : Outage :=
  { shared := { epoch, queue := .bounded capacity }, sender := .start id quota room, mock }

/-- The sender meets an event. -/
def meet (settings : RetrySettings) (c : Outage) (e : SenderEvent) : Option Outage :=
  (c.sender.step settings c.shared e).map fun y => { c with shared := y.1, sender := y.2 }

/-- What the stand-in answers to a handshake. -/
def verdict (accepted : Bool) (room : Nat) : Except ConnectError Unit :=
  if accepted then .ok ()
  else .error (.rejected (Target.mock.endpoint room) MockService.refusal)

/-- What a move makes of an outage; nothing if the move cannot happen. The producer puts a message in
only where there is room, and it goes away only if it has put in as many as the sender may take. -/
def step (settings : RetrySettings) (c : Outage) : OutageMove → Option Outage
  | .opens =>
    let (accepted, mock) := c.mock.handshake
    { c with mock }.meet settings (.dialed (verdict accepted c.sender.room))
  | .looks => c.meet settings .looked
  | .writes =>
    if c.sender.isSending && c.answer.isNone then
      let (e, mock) := c.mock.send c.sender.connection.isOpen settings.ackTimeout
      some { c with mock, answer := some e }
    else none
  | .answers =>
    match c.answer with
    | some e => { c with answer := none }.meet settings (.replied e.answer e.linkOpen)
    | none => none
  | .rests => c.meet settings .rested
  | .closes => c.meet settings .closed
  | .supplies item =>
    if c.shared.queue.producer then
      match c.shared.queue.put item with
      | (.done, queue) => some { c with shared := { c.shared with queue } }
      | _ => none
    else none
  | .ends =>
    if c.sender.quota ≤ c.sender.processed + c.shared.queue.size then
      some { c with shared := { c.shared with queue := c.shared.queue.dropProducer } }
    else none
  | .later now =>
    if c.shared.now ≤ now then some { c with shared := { c.shared with now } } else none

/-- What a list of moves makes of an outage. -/
def steps (settings : RetrySettings) (c : Outage) (ms : List OutageMove) : Option Outage :=
  Moves.follow (step settings) c ms

variable {settings : RetrySettings} {c c' : Outage} {m : OutageMove} {ms : List OutageMove}
  {N : Nat}

/-! ### Moves -/

/-- What a move can make of an outage: the sender meets an event, its message is written, or what is
around it changes. -/
inductive Does (settings : RetrySettings) (c : Outage) : OutageMove → Outage → Prop
  | opened (y : Shared × Sender)
      (hy : c.sender.step settings c.shared (.dialed (.ok ())) = some y) :
      Does settings c .opens { c with shared := y.1, sender := y.2, mock := c.mock.welcome }
  | looked (y : Shared × Sender) (hy : c.sender.step settings c.shared .looked = some y) :
      Does settings c .looks { c with shared := y.1, sender := y.2 }
  | wrote (hs : c.sender.isSending = true) (ha : c.answer = none) :
      Does settings c .writes
        { c with
          mock := (c.mock.send c.sender.connection.isOpen settings.ackTimeout).2
          answer := some (c.mock.send c.sender.connection.isOpen settings.ackTimeout).1 }
  | answered (e : Exchange) (y : Shared × Sender) (ha : c.answer = some e)
      (hy : c.sender.step settings c.shared (.replied e.answer e.linkOpen) = some y) :
      Does settings c .answers { shared := y.1, sender := y.2, mock := c.mock }
  | rested (y : Shared × Sender) (hy : c.sender.step settings c.shared .rested = some y) :
      Does settings c .rests { c with shared := y.1, sender := y.2 }
  | closed (y : Shared × Sender) (hy : c.sender.step settings c.shared .closed = some y) :
      Does settings c .closes { c with shared := y.1, sender := y.2 }
  | supplied (item : WorkItem) (queue : Queue WorkItem) (hp : c.shared.queue.producer = true)
      (hq : c.shared.queue.put item = (.done, queue)) :
      Does settings c (.supplies item) { c with shared := { c.shared with queue } }
  | ended (hN : c.sender.quota ≤ c.sender.processed + c.shared.queue.size) :
      Does settings c .ends
        { c with shared := { c.shared with queue := c.shared.queue.dropProducer } }
  | waited (now : Moment) : Does settings c (.later now) { c with shared := { c.shared with now } }

theorem does_of_step (hm : c.mock.Reliable settings.ackTimeout) (h : c.step settings m = some c') :
    Does settings c m c' := by
  cases m with
  | opens =>
    simp only [step, hm.handshake, verdict, if_true] at h
    obtain ⟨y, hy, rfl⟩ := Option.map_eq_some_iff.mp h
    exact .opened y hy
  | looks =>
    obtain ⟨y, hy, rfl⟩ := Option.map_eq_some_iff.mp h
    exact .looked y hy
  | writes =>
    obtain ⟨hcond, hc'⟩ := Option.ite_none_right_eq_some.mp h
    simp only [Bool.and_eq_true, Option.isNone_iff_eq_none] at hcond
    rw [← Option.some.inj hc']
    exact .wrote hcond.1 hcond.2
  | answers =>
    cases ha : c.answer with
    | none => simp [step, ha] at h
    | some e =>
      simp only [step, ha] at h
      obtain ⟨y, hy, rfl⟩ := Option.map_eq_some_iff.mp h
      exact .answered e y ha hy
  | rests =>
    obtain ⟨y, hy, rfl⟩ := Option.map_eq_some_iff.mp h
    exact .rested y hy
  | closes =>
    obtain ⟨y, hy, rfl⟩ := Option.map_eq_some_iff.mp h
    exact .closed y hy
  | supplies item =>
    obtain ⟨hp, hc'⟩ := Option.ite_none_right_eq_some.mp h
    split at hc'
    · next queue hq =>
      rw [← Option.some.inj hc']
      exact .supplied item queue hp hq
    · cases hc'
  | ends =>
    obtain ⟨hN, hc'⟩ := Option.ite_none_right_eq_some.mp h
    rw [← Option.some.inj hc']
    exact .ended hN
  | later now =>
    obtain ⟨-, hc'⟩ := Option.ite_none_right_eq_some.mp h
    rw [← Option.some.inj hc']
    exact .waited now

/-! ### Good order -/

/-- What every move keeps of the parties: the sender is at one of its allowed attempts, nobody is told
to stop, and there are enough messages. -/
structure Orderly (settings : RetrySettings) (N : Nat) (c : Outage) : Prop where
  sender : c.sender.Sound
  within : c.sender.Within settings
  quota_eq : c.sender.quota = N
  mock : c.mock.Reliable settings.ackTimeout
  running : c.shared.stopping = false
  supply : c.shared.queue.producer = false → N ≤ c.sender.processed + c.shared.queue.size
  room : 1 ≤ c.shared.queue.capacity
  attended : c.sender.isDone = false → 1 ≤ c.shared.queue.consumers
  standing : c.sender.stage ≠ .crashed
  exits : ∀ exit, c.sender.exit? = some exit → exit = .quotaReached

theorem orderly_start (settings : RetrySettings) (epoch : Int) (capacity id room : Nat)
    {N : Nat} {mock : MockService} (hm : mock.Reliable settings.ackTimeout) :
    (start epoch capacity id N room mock).Orderly settings N where
  sender := Sender.sound_start id N room
  within := Sender.within_start id N room
  quota_eq := rfl
  mock := hm
  running := rfl
  supply := nofun
  room := Nat.le_max_right capacity 1
  attended := fun _ => Nat.le_refl 1
  standing := nofun
  exits := nofun

/-- A sender in good order leaves only when it has done its work. -/
theorem Orderly.exit_of_step {e : SenderEvent} {y : Shared × Sender} {exit : SenderExit}
    (ho : c.Orderly settings N) (hy : c.sender.step settings c.shared e = some y)
    (he : ∀ err, e ≠ .dialed (.error err)) (h : y.2.exit? = some exit) :
    exit = .quotaReached := by
  obtain hbefore | hgrounds := Sender.grounds_step hy h
  · exact ho.exits exit hbefore
  cases exit with
  | quotaReached => rfl
  | shutdown => exact absurd (ho.running.symm.trans hgrounds.2) Bool.false_ne_true
  | queueDrained =>
    -- the producer goes away only after it has put in enough
    obtain ⟨hs, hempty, hgone⟩ := hgrounds
    have hsupply := ho.supply hgone
    have hsound := ho.sender
    have hsize : c.shared.queue.size = 0 := by rw [← Queue.length_toList, hempty, List.length_nil]
    simp only [Sender.Sound, hs, ho.quota_eq] at hsound
    omega
  | connectFailed reason =>
    have hs : c.sender.stage = .dialing := hgrounds
    cases Sender.does_of_step hy with
    | connected u hst => exact Sender.exit?_goOn h
    | refused err hst => exact absurd rfl (he err)
    | lost hd => simp [Sender.exit?, hs] at h
    | crashed hd => cases h
    | repaired _ _ hst | tried _ _ _ _ _ hst | told hst | took _ _ hst | drained _ hst
    | starved _ hst | closed _ hst => simp [hs] at hst

theorem Orderly.meet {e : SenderEvent} {y : Shared × Sender} {mock : MockService}
    (ho : c.Orderly settings N) (hy : c.sender.step settings c.shared e = some y)
    (he : ∀ err, e ≠ .dialed (.error err)) (hcrash : e ≠ .crashed)
    (hm : mock.Reliable settings.ackTimeout) (answer : Option Exchange) :
    Orderly settings N { shared := y.1, sender := y.2, mock, answer } := by
  obtain ⟨ended, hentered⟩ := Sender.entered_step hy
  have hdone := Sender.isDone_eq_false_of_step hy
  exact {
    sender := Sender.sound_step hy ho.sender
    within := Sender.within_step hy ho.within
    quota_eq := hentered.quota_eq.trans ho.quota_eq
    mock := hm
    running := hentered.stopping_eq.trans ho.running
    supply := fun hgone => by
      have hsupply := ho.supply (hentered.producer_eq.symm.trans hgone)
      have hcontent := congrArg List.length hentered.content
      have hprocessed := hentered.processed_eq
      simp only [List.length_append, Queue.length_toList] at hcontent hprocessed ⊢
      omega
    room := (Sender.capacity_step hy).symm ▸ ho.room
    attended := fun hnot => by
      have hconsumers := Sender.consumers_step hy
      simp only at hnot
      rw [hnot, if_neg Bool.false_ne_true] at hconsumers
      exact hconsumers.symm ▸ ho.attended hdone
    standing := Sender.ne_crashed_of_step hy hcrash
    exits := fun exit => ho.exit_of_step hy he }

/-- **Every move keeps an outage in good order.** -/
theorem orderly_step (h : c.step settings m = some c') (ho : c.Orderly settings N) :
    c'.Orderly settings N := by
  cases does_of_step ho.mock h with
  | opened y hy => exact ho.meet hy nofun nofun ho.mock.welcome _
  | looked y hy | rested y hy | closed y hy => exact ho.meet hy nofun nofun ho.mock _
  | answered e y ha hy => exact ho.meet hy nofun nofun ho.mock _
  | wrote hs ha => exact { ho with mock := ho.mock.of_send _ }
  | supplied item queue hp hq =>
    obtain ⟨hpos, rfl⟩ := Queue.put_done hq
    exact { ho with supply := fun hgone => absurd (hp.symm.trans hgone) nofun }
  | ended hN => exact { ho with supply := fun _ => ho.quota_eq ▸ hN }
  | waited now => exact { ho with }

end Outage

end LoadRig
