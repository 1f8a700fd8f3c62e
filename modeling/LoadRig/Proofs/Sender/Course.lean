import LoadRig.Proofs.Moves
import LoadRig.Proofs.Sender.Message
/-!
# The course of a sender

A sender under way, with everything that it shares, among others who do what they like: other senders
take from the queue and record, the producer puts in or goes away, time goes by and the sign of a
shutdown may be given, all of it at any moment. The far side does what it likes too. Openings end in
whatever way, a message that was written is answered in whatever way, and a link may be lost at any
moment; a message that finds the connection closed is refused by the connection itself.

`SenderCourse` keeps what a bystander sees. What the sender takes from the queue, what it records and
what it counts is read off the queue, the records and the counters before and after its own events,
so nothing is taken on trust from the sender; what the far side sees is the links that were opened and
the messages that were written to them.

Everything that was seen falls into chapters, one for each message that has ended, and what was seen
of the message in the hand. `SenderCourse.Sound` says so, and that the sender's own tally is what was
seen.

## Main definitions

* `LoadRig.SenderCourse`, `LoadRig.SenderMove`, `LoadRig.Sight`
* `LoadRig.SenderCourse.step`, `LoadRig.SenderCourse.steps` — what moves make of a course.
* `LoadRig.Chapter`, `LoadRig.SenderCourse.Chapters` — what was seen, message by message.
* `LoadRig.SenderCourse.Sound` — the invariant.

## Main results

* `LoadRig.SenderCourse.does_of_step` — what a move can make of a course.
* `LoadRig.SenderCourse.chapters_step` — every move goes on with a chapter, ends one or begins one.
* `LoadRig.SenderCourse.sound_step`, `LoadRig.SenderCourse.sound_of_steps` — every move keeps the
  tally.
-/

namespace LoadRig

/-- What was counted between two states of the counters. -/
def Counters.since (before after : Counters) : Counters where
  succeeded := after.succeeded - before.succeeded
  failed := after.failed - before.failed
  connections := after.connections - before.connections
  reconnections := after.reconnections - before.reconnections

/-- Whether an event is the loss of the link. -/
def SenderEvent.isLoss : SenderEvent → Bool
  | .lost => true
  | _ => false

/-- Whether an event is the answer to a message. -/
def SenderEvent.isReply : SenderEvent → Bool
  | .replied _ _ => true
  | _ => false

theorem SenderEvent.isReply_of_isAck {e : SenderEvent} (h : e.isAck = true) : e.isReply = true := by
  cases e with
  | replied r linkOpen => rfl
  | dialed | looked | rested | interrupted | lost | closed | crashed => cases h

/-- What the far side sees of a sender. -/
inductive Sight where
  /-- A link was opened. -/
  | opened
  /-- A message was written to the link that was opened last. -/
  | wrote (payload : String)
deriving DecidableEq, Repr

/-- What was written, if anything was. -/
def Sight.payload? : Sight → Option String
  | .opened => none
  | .wrote payload => some payload

/-- A sender under way with all that it shares, and what was seen of it. -/
structure SenderCourse where
  shared : Shared
  sender : Sender
  /-- Whether the message of the attempt under way was written to the link. -/
  written : Bool := false
  /-- What the queue lacks after the events of the sender. -/
  taken : List WorkItem := []
  /-- What the records have more after the events of the sender. -/
  recorded : List SampleRecord := []
  /-- What the counters have more after the events of the sender. -/
  counted : Counters := {}
  seen : List Sight := []
  /-- The repairs that succeeded. -/
  repaired : Nat := 0
  /-- How often an open link was lost while no message was in the hand. -/
  strays : Nat := 0

/-- What can happen to a sender and around it. -/
inductive SenderMove where
  | meets (e : SenderEvent)
  /-- The message of an attempt is written to the link. -/
  | wrote
  /-- The connection is found closed instead. -/
  | refused
  /-- What is shared is now this: others have done something, or time has gone by. -/
  | others (shared : Shared)

namespace SenderCourse

/-- A sender that has begun to open its connection. -/
def start (shared : Shared) (id quota room : Nat) : SenderCourse :=
  { shared, sender := .start id quota room }

/-- The course after an event that came out as given. -/
def met (c : SenderCourse) (e : SenderEvent) (y : Shared × Sender) : SenderCourse where
  shared := y.1
  sender := y.2
  written := c.written && e.isLoss
  taken := c.taken ++ c.shared.queue.toList.take (c.shared.queue.size - y.1.queue.size)
  recorded := c.recorded ++ y.1.pool.records.drop c.shared.pool.size
  counted := c.counted + c.shared.counters.since y.1.counters
  seen := c.seen ++ if e.opens then [.opened] else []
  repaired := c.repaired + (e.opens && c.sender.stage != .dialing).toNat
  strays := c.strays +
    if e.isLoss && c.sender.inHand?.isNone then c.sender.connection.openLink else 0

/-- The course after the message in the hand was written to the link. -/
def write (c : SenderCourse) : SenderCourse :=
  { c with
    written := true
    seen := c.seen ++ (c.sender.inHand?.map fun item => .wrote item.payload).toList }

/-- What a move makes of a course; nothing if the move cannot happen. The link answers a message that
was written to it, and nothing is written to a link that is not open. -/
def step (settings : RetrySettings) (c : SenderCourse) : SenderMove → Option SenderCourse
  | .meets e =>
    if e.isReply && !c.written then none
    else (c.sender.step settings c.shared e).map (c.met e)
  | .wrote =>
    if c.sender.isSending && c.sender.connection.isOpen && !c.written then some c.write else none
  | .refused =>
    if c.sender.connection.isOpen || c.written then none
    else (c.sender.step settings c.shared (.replied (.error .closed) false)).map
      (c.met (.replied (.error .closed) false))
  | .others shared => some { c with shared }

/-- What a list of moves makes of a course. -/
def steps (settings : RetrySettings) (c : SenderCourse) (ms : List SenderMove) :
    Option SenderCourse :=
  Moves.follow (step settings) c ms

/-- What was written to the links, in order. -/
def writes (c : SenderCourse) : List String := c.seen.filterMap (·.payload?)

/-- The number of links that were opened. -/
def links (c : SenderCourse) : Nat := c.seen.count .opened

variable {settings : RetrySettings} {c c' : SenderCourse} {m : SenderMove} {ms : List SenderMove}
  {e : SenderEvent} {y : Shared × Sender}

/-- What a move can make of a course: the sender meets an event, its message is written, or others
change what is shared. -/
inductive Does (settings : RetrySettings) (c : SenderCourse) : SenderMove → SenderCourse → Prop
  | met (m : SenderMove) (e : SenderEvent) (y : Shared × Sender)
      (hm : m = .meets e ∨ m = .refused ∧ e = .replied (.error .closed) false)
      (hy : c.sender.step settings c.shared e = some y) (hw : e.isAck = true → c.written = true) :
      Does settings c m (c.met e y)
  | wrote (hs : c.sender.isSending = true) (hw : c.written = false) : Does settings c .wrote c.write
  | others (shared : Shared) : Does settings c (.others shared) { c with shared }

theorem does_of_step (h : c.step settings m = some c') : Does settings c m c' := by
  cases m with
  | meets e =>
    obtain ⟨hreply, hmap⟩ := Option.ite_none_left_eq_some.mp h
    obtain ⟨y, hy, rfl⟩ := Option.map_eq_some_iff.mp hmap
    refine .met _ e y (.inl rfl) hy fun hack => ?_
    simpa [SenderEvent.isReply_of_isAck hack] using hreply
  | wrote =>
    obtain ⟨hcond, hc'⟩ := Option.ite_none_right_eq_some.mp h
    simp only [Bool.and_eq_true, Bool.not_eq_true'] at hcond
    rw [← Option.some.inj hc']
    exact .wrote hcond.1.1 hcond.2
  | refused =>
    obtain ⟨-, hmap⟩ := Option.ite_none_left_eq_some.mp h
    obtain ⟨y, hy, rfl⟩ := Option.map_eq_some_iff.mp hmap
    exact .met _ _ y (.inr ⟨rfl, rfl⟩) hy nofun
  | others shared =>
    rw [← Option.some.inj h]
    exact .others shared

/-! ### What is seen -/

/-- What a sender takes is what the queue lacks. -/
theorem taken_met (e : SenderEvent) (taken : List WorkItem)
    (h : c.shared.queue.toList = taken ++ y.1.queue.toList) :
    (c.met e y).taken = c.taken ++ taken := by
  have hsize : c.shared.queue.size = taken.length + y.1.queue.size := by
    rw [← Queue.length_toList, h, List.length_append, Queue.length_toList]
  rw [met, hsize, Nat.add_sub_cancel, h, List.take_left]

/-- What a sender records is what the records have more. -/
theorem recorded_met (e : SenderEvent) (ended : List SampleRecord)
    (h : y.1.pool.records = c.shared.pool.records ++ ended) :
    (c.met e y).recorded = c.recorded ++ ended := by
  rw [met, h, ← SamplePool.length_records, List.drop_left]

theorem writes_met (c : SenderCourse) (e : SenderEvent) (y : Shared × Sender) :
    (c.met e y).writes = c.writes := by
  simp only [writes, met, List.filterMap_append]
  split
  · exact List.append_nil _
  · exact List.append_nil _

theorem writes_write (c : SenderCourse) :
    c.write.writes = c.writes ++ (c.sender.inHand?.map (·.payload)).toList := by
  cases h : c.sender.inHand? with
  | none => simp [writes, write, h]
  | some item => simp [writes, write, h, Sight.payload?]

theorem links_met (c : SenderCourse) (e : SenderEvent) (y : Shared × Sender) :
    (c.met e y).links = c.links + e.opens.toNat := by
  simp only [links, met, List.count_append]
  cases e.opens <;> rfl

theorem links_write (c : SenderCourse) : c.write.links = c.links := by
  cases h : c.sender.inHand? with
  | none => simp [links, write, h]
  | some item => simp [links, write, h]

/-! ### Chapters -/

end SenderCourse

/-- What was seen of a message that has ended: how often it was written, and its record. -/
structure Chapter where
  item : WorkItem
  copies : Nat
  record : SampleRecord

/-- What was written of a message. -/
def Chapter.writes (ch : Chapter) : List String := List.replicate ch.copies ch.item.payload

/-- A message is recorded by its kind. It is written at most so many times, and at least once if it is
recorded as acknowledged. -/
structure Chapter.Regular (maxAttempts : Nat) (ch : Chapter) : Prop where
  kind_eq : ch.record.kind = ch.item.kind
  copies_le : ch.copies ≤ maxAttempts
  copies_pos : ch.record.outcome = .ok → 1 ≤ ch.copies

namespace SenderCourse

variable {settings : RetrySettings} {c c' : SenderCourse} {m : SenderMove} {ms : List SenderMove}
  {e : SenderEvent} {y : Shared × Sender}

/-- What was seen falls into chapters, one for each message that has ended, and the message in the
hand, which was written `copies` times. A sender that was brought down may have lost it. -/
structure Chapters (settings : RetrySettings) (c : SenderCourse) (chapters : List Chapter)
    (hand : Option WorkItem) (copies : Nat) : Prop where
  taken_eq : c.taken = chapters.map (·.item) ++ hand.toList
  recorded_eq : c.recorded = chapters.map (·.record)
  writes_eq : c.writes = chapters.flatMap (·.writes) ++
    hand.toList.flatMap fun item => List.replicate copies item.payload
  regular : ∀ ch ∈ chapters, ch.Regular settings.maxAttempts
  hand_eq : c.sender.stage ≠ .crashed → hand = c.sender.inHand?
  copies_le : copies ≤ settings.maxAttempts
  /-- Every attempt writes the message at most once. -/
  copies_le_tries : c.sender.stage ≠ .crashed →
    copies ≤ c.sender.tries + (c.written && c.sender.isSending).toNat
  copies_pos : c.written = true → 1 ≤ copies
  sending : c.written = true → c.sender.stage ≠ .crashed → c.sender.isSending = true

theorem chapters_start (settings : RetrySettings) (shared : Shared) (id quota room : Nat) :
    (start shared id quota room).Chapters settings [] none 0 where
  taken_eq := rfl
  recorded_eq := rfl
  writes_eq := rfl
  regular := nofun
  hand_eq := fun _ => rfl
  copies_le := Nat.zero_le _
  copies_le_tries := fun _ => Nat.zero_le _
  copies_pos := nofun
  sending := nofun

theorem inHand?_isSome_of_isSending {s : Sender} (h : s.isSending = true) :
    s.inHand?.isSome = true := by
  cases hs : s.stage with
  | trying t => simp [Sender.inHand?, hs]
  | dialing | waiting | repairing | closing | left | crashed => simp [Sender.isSending, hs] at h

theorem eq_of_lost (h : c.sender.step settings c.shared .lost = some y) :
    y = (c.shared, { c.sender with connection := c.sender.connection.lose }) := by
  obtain ⟨-, hy⟩ := Option.ite_none_left_eq_some.mp h
  exact (Option.some.inj hy).symm

theorem eq_of_crashed (h : c.sender.step settings c.shared .crashed = some y) :
    y = ({ c.shared with queue := c.shared.queue.dropConsumer },
      { c.sender with stage := .crashed }) := by
  obtain ⟨-, hy⟩ := Option.ite_none_left_eq_some.mp h
  exact (Option.some.inj hy).symm

variable {chapters : List Chapter} {hand : Option WorkItem} {copies : Nat}

/-- The message in the hand is written once more. -/
theorem Chapters.write (hc : c.Chapters settings chapters hand copies)
    (hw : c.sender.Within settings) (hs : c.sender.isSending = true) (hnot : c.written = false) :
    c.write.Chapters settings chapters hand (copies + 1) := by
  have hcrashed : c.sender.stage ≠ .crashed := fun h => by simp [Sender.isSending, h] at hs
  obtain ⟨item, hitem⟩ := Option.isSome_iff_exists.mp (inHand?_isSome_of_isSending hs)
  have hhand : hand = some item := (hc.hand_eq hcrashed).trans hitem
  have hcopies := hc.copies_le_tries hcrashed
  have htries := Sender.tries_le hw
  simp only [hnot, Bool.false_and, Bool.toNat_false] at hcopies
  simp only [hs, Bool.toNat_true] at htries
  refine { hc with
    writes_eq := ?_, copies_le := by omega, copies_le_tries := fun _ => ?_,
    copies_pos := fun _ => Nat.le_add_left 1 copies, sending := fun _ _ => hs }
  · rw [writes_write, hc.writes_eq, hitem, hhand]
    simp [List.replicate_succ']
  · show copies + 1 ≤ c.sender.tries + (true && c.sender.isSending).toNat
    rw [hs]
    exact Nat.succ_le_succ hcopies

/-- A lost link changes nothing of what was seen. -/
theorem Chapters.lose (hc : c.Chapters settings chapters hand copies) (y : Shared × Sender)
    (hy : y = (c.shared, { c.sender with connection := c.sender.connection.lose })) :
    (c.met .lost y).Chapters settings chapters hand copies := by
  subst hy
  have hwritten : (c.met .lost (c.shared, { c.sender with
      connection := c.sender.connection.lose })).written = c.written := Bool.and_true _
  refine {
    taken_eq := (taken_met _ [] rfl).trans ((List.append_nil _).trans hc.taken_eq)
    recorded_eq := (recorded_met _ [] (List.append_nil _).symm).trans
      ((List.append_nil _).trans hc.recorded_eq)
    writes_eq := (writes_met ..).trans hc.writes_eq
    regular := hc.regular
    hand_eq := hc.hand_eq
    copies_le := hc.copies_le
    copies_le_tries := fun h => ?_
    copies_pos := fun h => hc.copies_pos (hwritten ▸ h)
    sending := fun h => hc.sending (hwritten ▸ h) }
  rw [hwritten]
  exact hc.copies_le_tries h

/-- A sender that is brought down leaves behind what was seen. -/
theorem Chapters.crash (hc : c.Chapters settings chapters hand copies) (y : Shared × Sender)
    (hy : y = ({ c.shared with queue := c.shared.queue.dropConsumer },
      { c.sender with stage := .crashed })) :
    (c.met .crashed y).Chapters settings chapters hand copies := by
  subst hy
  exact {
    taken_eq := (taken_met _ [] rfl).trans ((List.append_nil _).trans hc.taken_eq)
    recorded_eq := (recorded_met _ [] (List.append_nil _).symm).trans
      ((List.append_nil _).trans hc.recorded_eq)
    writes_eq := (writes_met ..).trans hc.writes_eq
    regular := hc.regular
    hand_eq := fun h => absurd rfl h
    copies_le := hc.copies_le
    copies_le_tries := fun h => absurd rfl h
    copies_pos := fun h => hc.copies_pos ((Bool.and_eq_true _ _).mp h).1
    sending := fun _ h => absurd rfl h }

/-- **Every other event goes on with the chapter of the message in the hand, ends it, or begins one.** -/
theorem Chapters.meet (hc : c.Chapters settings chapters hand copies)
    (hy : c.sender.step settings c.shared e = some y) (hack : e.isAck = true → c.written = true)
    (hlost : e ≠ .lost) (hcrashed : e ≠ .crashed) :
    ∃ chapters' hand' copies', (c.met e y).Chapters settings chapters' hand' copies' := by
  have hloss : e.isLoss = false := by
    cases e with
    | lost => exact absurd rfl hlost
    | dialed | looked | replied | rested | interrupted | closed | crashed => rfl
  have hwritten : (c.met e y).written = false := by simp [met, hloss]
  have hstage : c.sender.stage ≠ .crashed :=
    Sender.ne_crashed_of_isDone_eq_false (Sender.isDone_eq_false_of_step hy)
  have hstage' : y.2.stage ≠ .crashed := Sender.ne_crashed_of_step hy hcrashed
  obtain ⟨records, hentered⟩ := Sender.entered_step hy
  obtain ⟨items, ended, hends, hrecords, hheld⟩ := Sender.hands_step hy hstage'
  obtain rfl := hc.hand_eq hstage
  have htaken : (c.met e y).taken = chapters.map (·.item) ++ (items ++ y.2.inHand?.toList) := by
    rw [taken_met e _ hentered.content, hc.taken_eq, List.append_assoc, hheld]
  have hrecorded : (c.met e y).recorded = chapters.map (·.record) ++ ended := by
    rw [recorded_met e _ hrecords, hc.recorded_eq]
  have hwrites := (writes_met c e y).trans hc.writes_eq
  have hcopies := hc.copies_le_tries hstage
  -- what comes into the hand was not written yet
  have hfresh : (y.2.inHand?.toList.flatMap fun item => List.replicate 0 item.payload) = [] :=
    List.flatMap_eq_nil_iff.mpr fun _ _ => rfl
  cases hends with
  | nothing =>
    cases hitem : c.sender.inHand? with
    | none =>
      refine ⟨chapters, y.2.inHand?, 0, {
        taken_eq := htaken, recorded_eq := hrecorded.trans (List.append_nil _),
        writes_eq := ?_, regular := hc.regular, hand_eq := fun _ => rfl,
        copies_le := Nat.zero_le _, copies_le_tries := fun _ => Nat.zero_le _,
        copies_pos := by simp [hwritten], sending := by simp [hwritten] }⟩
      rw [hfresh, hwrites, hitem]
      rfl
    | some item =>
      have hitem' : y.2.inHand? = some item := by
        cases h : y.2.inHand? with
        | none => simp [hitem, h] at hheld
        | some item' => simp_all
      refine ⟨chapters, y.2.inHand?, copies, {
        taken_eq := htaken, recorded_eq := hrecorded.trans (List.append_nil _),
        writes_eq := by rw [hwrites, hitem, hitem'], regular := hc.regular,
        hand_eq := fun _ => rfl, copies_le := hc.copies_le, copies_le_tries := fun _ => ?_,
        copies_pos := by simp [hwritten], sending := by simp [hwritten] }⟩
      have htries : c.sender.tries + c.sender.isSending.toNat ≤ y.2.tries :=
        Sender.tries_step hy hlost (by simp [hitem]) (by simp [hitem'])
      have hle : (c.written && c.sender.isSending).toNat ≤ c.sender.isSending.toNat := by
        cases c.written <;> simp
      rw [hwritten]
      show copies ≤ y.2.tries + 0
      omega
  | message item r hk hok =>
    -- where no attempts are allowed, the message was not in the hand before
    obtain ⟨n, hn, hle, hpos⟩ : ∃ n,
        (c.sender.inHand?.toList.flatMap fun item => List.replicate copies item.payload)
          = List.replicate n item.payload ∧
        n ≤ settings.maxAttempts ∧ (c.written = true → 1 ≤ n) := by
      cases hitem : c.sender.inHand? with
      | none =>
        refine ⟨0, rfl, Nat.zero_le _, fun hw => ?_⟩
        have hsome := inHand?_isSome_of_isSending (hc.sending hw hstage)
        simp [hitem] at hsome
      | some item' =>
        obtain rfl : item' = item := by
          rw [hitem] at hheld
          exact (List.cons.inj hheld).1
        exact ⟨copies, by simp, hc.copies_le, hc.copies_pos⟩
    refine ⟨chapters ++ [⟨item, n, r⟩], y.2.inHand?, 0, {
      taken_eq := by simpa using htaken, recorded_eq := by simpa using hrecorded,
      writes_eq := ?_, regular := ?_, hand_eq := fun _ => rfl,
      copies_le := Nat.zero_le _, copies_le_tries := fun _ => Nat.zero_le _,
      copies_pos := by simp [hwritten], sending := by simp [hwritten] }⟩
    · rw [hfresh, hwrites, hn, List.append_nil, List.flatMap_append, List.flatMap_singleton]
      rfl
    · refine List.forall_mem_append.mpr ⟨hc.regular, ?_⟩
      exact List.forall_mem_singleton.mpr ⟨hk, hle, fun ho => hpos (hack (hok ho))⟩

/-- **Every move goes on with a chapter, ends one or begins one.** -/
theorem chapters_step (h : c.step settings m = some c') (hw : c.sender.Within settings)
    (hc : c.Chapters settings chapters hand copies) :
    ∃ chapters' hand' copies', c'.Chapters settings chapters' hand' copies' := by
  cases does_of_step h with
  | others shared => exact ⟨chapters, hand, copies, { hc with }⟩
  | wrote hs hnot => exact ⟨chapters, hand, copies + 1, hc.write hw hs hnot⟩
  | met m e y hm hy hack =>
    by_cases hlost : e = .lost
    · subst hlost
      exact ⟨chapters, hand, copies, hc.lose y (eq_of_lost hy)⟩
    by_cases hcrashed : e = .crashed
    · subst hcrashed
      exact ⟨chapters, hand, copies, hc.crash y (eq_of_crashed hy)⟩
    exact hc.meet hy hack hlost hcrashed

/-! ### The tally -/

/-- What every move keeps: the sender's own tally is what was seen, and a sender that has left has
closed its connection, unless it never had one. -/
structure Sound (settings : RetrySettings) (id quota room : Nat) (c : SenderCourse) : Prop where
  sender : c.sender.Sound
  within : c.sender.Within settings
  id_eq : c.sender.id = id
  quota_eq : c.sender.quota = quota
  room_eq : c.sender.room = room
  processed_eq : c.sender.processed = c.taken.length
  succeeded_eq : c.sender.succeeded = c.recorded.countP (·.outcome == .ok)
  failed_eq : c.sender.failed = c.recorded.countP (·.outcome == .fail)
  counted_ok : c.counted.succeeded = c.sender.succeeded
  counted_fail : c.counted.failed = c.sender.failed
  rooms : ∀ r ∈ c.recorded, r.room = room
  closed : ∀ exit, c.sender.stage = .left exit → (∃ reason, exit = .connectFailed reason) ∨
    (c.sender.connection.state = .closed ∧ c.sender.connection.link = none)
  chapters : ∃ chapters hand copies, c.Chapters settings chapters hand copies

variable {id quota room : Nat}

theorem sound_start (settings : RetrySettings) (shared : Shared) (id quota room : Nat) :
    (start shared id quota room).Sound settings id quota room where
  sender := Sender.sound_start id quota room
  within := Sender.within_start id quota room
  id_eq := rfl
  quota_eq := rfl
  room_eq := rfl
  processed_eq := rfl
  succeeded_eq := rfl
  failed_eq := rfl
  counted_ok := rfl
  counted_fail := rfl
  rooms := nofun
  closed := nofun
  chapters := ⟨[], none, 0, chapters_start settings shared id quota room⟩

/-- A sender that leaves closes its connection, unless it never had one. -/
theorem closed_of_step (hy : c.sender.step settings c.shared e = some y) {exit : SenderExit}
    (h : y.2.stage = .left exit) : (∃ reason, exit = .connectFailed reason) ∨
      (y.2.connection.state = .closed ∧ y.2.connection.link = none) := by
  have hdone : y.2.isDone = true := by simp [Sender.isDone, h]
  cases Sender.does_of_step hy with
  | refused err hs =>
    cases h
    exact .inl ⟨_, rfl⟩
  | closed exit' hs => exact .inr ⟨rfl, rfl⟩
  | connected => simp at hdone
  | repaired => simp [(Sender.keepsOn_tryItem ..).isDone_eq] at hdone
  | tried => simp [(Sender.keepsOn_follow ..).isDone_eq] at hdone
  | took => simp [(Sender.keepsOn_accept ..).isDone_eq] at hdone
  | told | drained | crashed => cases h
  | starved => simp [Sender.isDone_eq_false_of_step hy] at hdone
  | lost hd => exact absurd (hd.symm.trans hdone) Bool.false_ne_true

/-- **Every event keeps the tally**: what the sender counts for itself, what it counts for all and
what it records is the same. -/
theorem Sound.meet (hc : c.Sound settings id quota room)
    (hy : c.sender.step settings c.shared e = some y)
    (hchapters : ∃ chapters hand copies, (c.met e y).Chapters settings chapters hand copies) :
    (c.met e y).Sound settings id quota room := by
  obtain ⟨ended, he⟩ := Sender.entered_step hy
  have htaken := taken_met e _ he.content
  have hrecorded := recorded_met e _ he.recorded
  refine {
    sender := Sender.sound_step hy hc.sender
    within := Sender.within_step hy hc.within
    id_eq := he.id_eq.trans hc.id_eq
    quota_eq := he.quota_eq.trans hc.quota_eq
    room_eq := he.room_eq.trans hc.room_eq
    processed_eq := ?_, succeeded_eq := ?_, failed_eq := ?_, counted_ok := ?_, counted_fail := ?_
    rooms := ?_
    closed := fun exit => closed_of_step hy
    chapters := hchapters }
  · rw [htaken, List.length_append, ← hc.processed_eq]
    exact he.processed_eq
  · rw [hrecorded, List.countP_append, ← hc.succeeded_eq]
    exact he.succeeded_eq
  · rw [hrecorded, List.countP_append, ← hc.failed_eq]
    exact he.failed_eq
  · have hcounted := he.counted_ok
    have hown := he.succeeded_eq
    show c.counted.succeeded + (y.1.counters.succeeded - c.shared.counters.succeeded)
      = y.2.succeeded
    rw [hc.counted_ok]
    simp only at hcounted hown
    omega
  · have hcounted := he.counted_fail
    have hown := he.failed_eq
    show c.counted.failed + (y.1.counters.failed - c.shared.counters.failed) = y.2.failed
    rw [hc.counted_fail]
    simp only at hcounted hown
    omega
  · rw [hrecorded]
    exact List.forall_mem_append.mpr ⟨hc.rooms, fun r hr => (he.rooms r hr).trans hc.room_eq⟩

theorem sound_step (h : c.step settings m = some c') (hc : c.Sound settings id quota room) :
    c'.Sound settings id quota room := by
  obtain ⟨chapters, hand, copies, hchapters⟩ := hc.chapters
  have hnext := chapters_step h hc.within hchapters
  cases does_of_step h with
  | others shared => exact { hc with chapters := hnext }
  | wrote hs hnot => exact { hc with chapters := hnext }
  | met m e y hm hy hack => exact hc.meet hy hnext

/-- **The tally of every course.** -/
theorem sound_of_steps {shared : Shared}
    (h : (start shared id quota room).steps settings ms = some c) :
    c.Sound settings id quota room :=
  Moves.invariant (fun _ _ _ hs hstep => sound_step hstep hs) h (sound_start settings shared id quota room)

end SenderCourse

end LoadRig
