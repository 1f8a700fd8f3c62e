import LoadRig.Proofs.Queue
import LoadRig.Proofs.Retry.Attempts
import LoadRig.Sender
/-!
# What a sender enters where

A sender keeps a tally of its own, counts into the counters of its phase, appends to the records of
its phase and takes from the queue of its phase. These are four places, and nothing but the order of
the program ties them together. `Sender.Entered` says that between two states they have moved
together: the same messages were counted here, there and in the records, and the taken messages are
the ones that the queue lacks. The relation composes, so each part of a step is entered by itself.

`Sender.Does` lists what an event can make of a sender, one case for each stage that waits for it.

## Main definitions

* `LoadRig.Sender.concluded` — the messages that a sender has brought to an end.
* `LoadRig.Sender.takes` — what a sender takes from the queue at an event.
* `LoadRig.Sender.Entered` — the four places have moved together.
* `LoadRig.Sender.Does` — the events of a sender, case by case.

## Main results

* `LoadRig.Sender.does_of_step` — every step is one of the cases.
* `LoadRig.Sender.entered_step` — every step is entered.
-/

namespace LoadRig

/-! ### The two counts of ended messages -/

/-- Two counters that have seen the same messages end. Openings and repairs may differ. -/
def Counters.SameEnds (c c' : Counters) : Prop := c'.succeeded = c.succeeded ∧ c'.failed = c.failed

theorem Counters.SameEnds.refl (c : Counters) : c.SameEnds c := ⟨rfl, rfl⟩

theorem Line.sameEnds_redial (l : Line) : l.counters.SameEnds l.redial.counters := ⟨rfl, rfl⟩

theorem Line.sameEnds_settle (l : Line) (r : Except ConnectError Unit) :
    l.counters.SameEnds (l.settle r).counters := by
  cases r <;> exact ⟨rfl, rfl⟩

namespace Retry

variable {settings : RetrySettings}

theorem sameEnds_attempting (l : Line) (attempt : Nat) :
    l.counters.SameEnds (attempting l attempt).1.counters := by
  rw [attempting]
  split
  · exact .refl _
  · exact l.sameEnds_redial

theorem sameEnds_start (settings : RetrySettings) (l : Line) :
    l.counters.SameEnds (start settings l).1.counters := by
  rw [start]
  split
  · exact .refl _
  · exact sameEnds_attempting l 0

/-- Trying a message opens connections and repairs them, but counts no message. -/
theorem sameEnds_step {now : Moment} {stopping : Bool} {l : Line} {r : Retry} {e : RetryEvent}
    {y : Line × RetryStatus} (h : r.step settings now stopping l e = some y) :
    l.counters.SameEnds y.1.counters := by
  cases does_of_step h with
  | repaired u => exact l.sameEnds_settle (.ok u)
  | refused e => exact l.sameEnds_settle (.error e)
  | rested => exact sameEnds_attempting l (r.attempt + 1)
  | acked | unanswered | interrupted => exact .refl _

end Retry

namespace Sender

/-- The messages that a sender has brought to an end. -/
def concluded (s : Sender) : Nat := s.succeeded + s.failed

/-- What a sender takes from the queue at an event: the front item, if it looks and does not see the
sign of a shutdown first. -/
def takes (sh : Shared) (s : Sender) (e : SenderEvent) : List WorkItem :=
  match e, s.stage with
  | .looked, .waiting =>
    if sh.stopping then []
    else
      match sh.queue.poll with
      | (.item item, _) => [item]
      | _ => []
  | _, _ => []

/-- The record of a message that ends now. -/
def recordOf (t : Trial) (outcome : Outcome) (sh : Shared) (s : Sender) : SampleRecord :=
  { sentAt := t.sentAt, kind := t.item.kind, latency := (sh.now - t.began) / 1000000, outcome,
    room := s.room }

/-! ### Entries -/

/-- Between two states, each of a sender and of what it shares, the sender has taken the items
`taken` from the queue and has ended messages with the records `ended`, and all of it is entered
where it belongs. -/
structure Entered (x : Shared × Sender) (taken : List WorkItem) (ended : List SampleRecord)
    (y : Shared × Sender) : Prop where
  id_eq : y.2.id = x.2.id
  room_eq : y.2.room = x.2.room
  quota_eq : y.2.quota = x.2.quota
  /-- The taken items are the ones that the queue lacks. -/
  content : x.1.queue.toList = taken ++ y.1.queue.toList
  producer_eq : y.1.queue.producer = x.1.queue.producer
  now_eq : y.1.now = x.1.now
  stopping_eq : y.1.stopping = x.1.stopping
  processed_eq : y.2.processed = x.2.processed + taken.length
  succeeded_eq : y.2.succeeded = x.2.succeeded + ended.countP (·.outcome == .ok)
  failed_eq : y.2.failed = x.2.failed + ended.countP (·.outcome == .fail)
  counted_ok : y.1.counters.succeeded = x.1.counters.succeeded + ended.countP (·.outcome == .ok)
  counted_fail : y.1.counters.failed = x.1.counters.failed + ended.countP (·.outcome == .fail)
  recorded : y.1.pool.records = x.1.pool.records ++ ended
  rooms : ∀ r ∈ ended, r.room = x.2.room

namespace Entered

variable {x y z : Shared × Sender} {taken taken' : List WorkItem}
  {ended ended' : List SampleRecord}

theorem refl (x : Shared × Sender) : Entered x [] [] x := by
  constructor <;> simp

theorem trans (h : Entered x taken ended y) (h' : Entered y taken' ended' z) :
    Entered x (taken ++ taken') (ended ++ ended') z where
  id_eq := h'.id_eq.trans h.id_eq
  room_eq := h'.room_eq.trans h.room_eq
  quota_eq := h'.quota_eq.trans h.quota_eq
  content := by rw [h.content, h'.content, List.append_assoc]
  producer_eq := h'.producer_eq.trans h.producer_eq
  now_eq := h'.now_eq.trans h.now_eq
  stopping_eq := h'.stopping_eq.trans h.stopping_eq
  processed_eq := by rw [h'.processed_eq, h.processed_eq, List.length_append, Nat.add_assoc]
  succeeded_eq := by rw [h'.succeeded_eq, h.succeeded_eq, List.countP_append, Nat.add_assoc]
  failed_eq := by rw [h'.failed_eq, h.failed_eq, List.countP_append, Nat.add_assoc]
  counted_ok := by rw [h'.counted_ok, h.counted_ok, List.countP_append, Nat.add_assoc]
  counted_fail := by rw [h'.counted_fail, h.counted_fail, List.countP_append, Nat.add_assoc]
  recorded := by rw [h'.recorded, h.recorded, List.append_assoc]
  rooms := by
    intro r hr
    rcases List.mem_append.mp hr with hr | hr
    · exact h.rooms r hr
    · exact (h'.rooms r hr).trans h.room_eq

/-- Going on to another stage enters nothing. -/
theorem to_stage (h : Entered x taken ended y) (stage : SenderStage) :
    Entered x taken ended (y.1, { y.2 with stage }) :=
  { h with }

/-- Neither does another connection. -/
theorem to_connection (h : Entered x taken ended y) (connection : Connection) :
    Entered x taken ended (y.1, { y.2 with connection }) :=
  { h with }

/-- Letting go of the queue leaves its content. -/
theorem to_dropConsumer (h : Entered x taken ended y) :
    Entered x taken ended ({ y.1 with queue := y.1.queue.dropConsumer }, y.2) :=
  { h with }

theorem to_goOn (h : Entered x taken ended y) : Entered x taken ended (y.1, y.2.goOn) := by
  rw [goOn]
  split <;> exact h.to_stage _

/-- A connection may be charged to the counters as long as no message is counted. -/
theorem to_withLine (h : Entered x taken ended y) {l : Line}
    (hl : (y.2.line y.1).counters.SameEnds l.counters) :
    Entered x taken ended (y.2.withLine y.1 l) :=
  { h with
    counted_ok := hl.1.trans h.counted_ok
    counted_fail := hl.2.trans h.counted_fail }

end Entered

/-! ### The parts of a step -/

section Parts

variable {settings : RetrySettings} {sh : Shared} {s : Sender}

/-- The end of a message is counted twice and recorded once. -/
theorem entered_conclude (t : Trial) (o : SendOutcome) :
    ∃ ended, Entered (sh, s) [] ended (conclude t o sh s) := by
  cases h : o.isSuccess with
  | true =>
    refine ⟨[recordOf t .ok sh s], ?_⟩
    simp only [conclude, h, if_true]
    refine Entered.to_goOn (y := (_, { s with succeeded := s.succeeded + 1 })) ?_
    constructor <;> simp [recordOf, Counters.addSuccess]
  | false =>
    refine ⟨[recordOf t .fail sh s], ?_⟩
    simp only [conclude, h, Bool.false_eq_true, if_false]
    refine Entered.to_goOn (y := (_, { s with failed := s.failed + 1 })) ?_
    constructor <;> simp [recordOf, Counters.addFailure]

theorem entered_follow (t : Trial) (status : RetryStatus) :
    ∃ ended, Entered (sh, s) [] ended (follow t status sh s) := by
  cases status with
  | going retry => exact ⟨[], (Entered.refl (sh, s)).to_stage _⟩
  | ended o => exact entered_conclude t o

theorem entered_tryItem (item : WorkItem) :
    ∃ ended, Entered (sh, s) [] ended (tryItem settings item sh s) := by
  have hl := (Entered.refl (sh, s)).to_withLine (Retry.sameEnds_start settings _)
  obtain ⟨ended, h⟩ := entered_follow _ _
  exact ⟨ended, hl.trans h⟩

/-- A message that was taken from the queue is counted when it is taken on. -/
theorem entered_accept {queue : Queue WorkItem} {item : WorkItem}
    (h : sh.queue.toList = item :: queue.toList) (hp : queue.producer = sh.queue.producer) :
    ∃ ended, Entered (sh, s) [item] ended (accept settings item { sh with queue } s) := by
  have hq : Entered (sh, s) [item] [] ({ sh with queue }, { s with processed := s.processed + 1 }) := by
    constructor <;> simp [h, hp]
  simp only [accept]
  split
  · obtain ⟨ended, ht⟩ := entered_tryItem item
    exact ⟨ended, hq.trans ht⟩
  · exact ⟨[], (hq.to_withLine (Line.sameEnds_redial _)).to_stage _⟩

end Parts

/-! ### Steps -/

/-- What an event can make of a sender and of what it shares: one case for each stage that waits for
the event, and one for each thing that a look can find. -/
inductive Does (settings : RetrySettings) (sh : Shared) (s : Sender) :
    SenderEvent → Shared × Sender → Prop
  | connected (u : Unit) (hs : s.stage = .dialing) :
      Does settings sh s (.dialed (.ok u))
        ((s.withLine sh ((s.line sh).settle (.ok u))).1,
          (s.withLine sh ((s.line sh).settle (.ok u))).2.goOn)
  | refused (e : ConnectError) (hs : s.stage = .dialing) :
      Does settings sh s (.dialed (.error e))
        (leave (.connectFailed e.message) (s.withLine sh ((s.line sh).settle (.error e))).1
          (s.withLine sh ((s.line sh).settle (.error e))).2)
  | repaired (r : Except ConnectError Unit) (item : WorkItem) (hs : s.stage = .repairing item) :
      Does settings sh s (.dialed r)
        (tryItem settings item (s.withLine sh ((s.line sh).settle r)).1
          (s.withLine sh ((s.line sh).settle r)).2)
  | tried (e : SenderEvent) (e' : RetryEvent) (t : Trial) (l : Line) (status : RetryStatus)
      (hs : s.stage = .trying t)
      (h : t.retry.step settings sh.now sh.stopping (s.line sh) e' = some (l, status)) :
      Does settings sh s e (follow t status (s.withLine sh l).1 (s.withLine sh l).2)
  | told (hs : s.stage = .waiting) (h : sh.stopping = true) :
      Does settings sh s .looked (sh, s.retire .shutdown)
  | took (item : WorkItem) (queue : Queue WorkItem) (hs : s.stage = .waiting)
      (h : sh.stopping = false) (hq : sh.queue.poll = (.item item, queue)) :
      Does settings sh s .looked (accept settings item { sh with queue } s)
  | drained (queue : Queue WorkItem) (hs : s.stage = .waiting) (h : sh.stopping = false)
      (hq : sh.queue.poll = (.drained, queue)) :
      Does settings sh s .looked (sh, s.retire .queueDrained)
  | starved (queue : Queue WorkItem) (hs : s.stage = .waiting) (h : sh.stopping = false)
      (hq : sh.queue.poll = (.empty, queue)) : Does settings sh s .looked (sh, s)
  | closed (exit : SenderExit) (hs : s.stage = .closing exit) :
      Does settings sh s .closed (leave exit sh { s with connection := s.connection.close })
  | lost (hd : s.isDone = false) :
      Does settings sh s .lost (sh, { s with connection := s.connection.lose })
  | crashed (hd : s.isDone = false) :
      Does settings sh s .crashed
        ({ sh with queue := sh.queue.dropConsumer }, { s with stage := .crashed })

section Steps

variable {settings : RetrySettings} {sh : Shared} {s : Sender} {e : SenderEvent}
  {y : Shared × Sender}

theorem does_look (hs : s.stage = .waiting) : Does settings sh s .looked (look settings sh s) := by
  rw [look]
  split
  · next h => exact .told hs h
  · next h =>
    have h : sh.stopping = false := by simpa using h
    split
    · next hq => exact .took _ _ hs h hq
    · next hq => exact .drained _ hs h hq
    · next hq => exact .starved _ hs h hq

theorem does_of_step (h : s.step settings sh e = some y) : Does settings sh s e y := by
  unfold step at h
  simp only at h
  split at h
  · next r hs =>
    cases r with
    | ok u => rw [← Option.some.inj h]; exact .connected u hs
    | error e => rw [← Option.some.inj h]; exact .refused e hs
  · next r item hs => rw [← Option.some.inj h]; exact .repaired r item hs
  · next r t hs =>
    obtain ⟨⟨l, status⟩, hr, hy⟩ := Option.map_eq_some_iff.mp h
    rw [← hy]; exact .tried _ _ t l status hs hr
  · next r linkOpen t hs =>
    obtain ⟨⟨l, status⟩, hr, hy⟩ := Option.map_eq_some_iff.mp h
    rw [← hy]; exact .tried _ _ t l status hs hr
  · next t hs =>
    obtain ⟨⟨l, status⟩, hr, hy⟩ := Option.map_eq_some_iff.mp h
    rw [← hy]; exact .tried _ _ t l status hs hr
  · next t hs =>
    obtain ⟨⟨l, status⟩, hr, hy⟩ := Option.map_eq_some_iff.mp h
    rw [← hy]; exact .tried _ _ t l status hs hr
  · next hs => rw [← Option.some.inj h]; exact does_look hs
  · next exit hs => rw [← Option.some.inj h]; exact .closed exit hs
  · split at h
    · cases h
    · next hd => rw [← Option.some.inj h]; exact .lost (by simpa using hd)
  · split at h
    · cases h
    · next hd => rw [← Option.some.inj h]; exact .crashed (by simpa using hd)
  · cases h

/-- A sender takes something only while it waits at the queue. -/
theorem takes_of_stage_ne (hs : s.stage ≠ .waiting) : s.takes sh e = [] := by
  simp only [takes]
  split
  · next h => exact absurd h hs
  · rfl

/-- **Every step is entered.** Whatever an event makes of a sender, what it takes from the queue is
what `takes` says, and its own tally, the counters and the records move together. -/
theorem entered_step (h : s.step settings sh e = some y) :
    ∃ ended, Entered (sh, s) (s.takes sh e) ended y := by
  cases does_of_step h with
  | connected u hs =>
    exact ⟨[], ((Entered.refl (sh, s)).to_withLine (Line.sameEnds_settle _ _)).to_goOn⟩
  | refused e hs =>
    have hl := (Entered.refl (sh, s)).to_withLine (Line.sameEnds_settle _ (.error e))
    exact ⟨[], hl.to_dropConsumer.to_stage _⟩
  | repaired r item hs =>
    rw [takes_of_stage_ne (by simp [hs])]
    obtain ⟨ended, ht⟩ := entered_tryItem item
    exact ⟨ended, ((Entered.refl (sh, s)).to_withLine (Line.sameEnds_settle _ r)).trans ht⟩
  | tried e e' t l status hs hstep =>
    rw [takes_of_stage_ne (by simp [hs])]
    obtain ⟨ended, hf⟩ := entered_follow t status
    exact ⟨ended, ((Entered.refl (sh, s)).to_withLine (Retry.sameEnds_step hstep)).trans hf⟩
  | told hs hstop =>
    have ht : s.takes sh .looked = [] := by simp [takes, hs, hstop]
    exact ⟨[], ht ▸ (Entered.refl (sh, s)).to_stage _⟩
  | took item queue hs hstop hq =>
    have ht : s.takes sh .looked = [item] := by simp [takes, hs, hstop, hq]
    obtain ⟨hc, hp, -⟩ := Queue.poll_item hq
    exact ht ▸ entered_accept hc hp
  | drained queue hs hstop hq =>
    have ht : s.takes sh .looked = [] := by simp [takes, hs, hstop, hq]
    exact ⟨[], ht ▸ (Entered.refl (sh, s)).to_stage _⟩
  | starved queue hs hstop hq =>
    have ht : s.takes sh .looked = [] := by simp [takes, hs, hstop, hq]
    exact ⟨[], ht ▸ Entered.refl (sh, s)⟩
  | closed exit hs =>
    exact ⟨[], ((Entered.refl (sh, s)).to_connection _).to_dropConsumer.to_stage _⟩
  | lost hd => exact ⟨[], (Entered.refl (sh, s)).to_connection _⟩
  | crashed hd => exact ⟨[], (Entered.refl (sh, s)).to_dropConsumer.to_stage _⟩

end Steps

end Sender

end LoadRig
