import LoadRig.Clock.Session
import LoadRig.Proofs.Retry.Outcome
/-!
# Calls on a virtual clock

A call that tries a message on the clock of a session picks one of the courses that a message can
take: each turn of the call is a few moves of the course. While the service takes its time the clock
goes on and the sign to stop may be given, and then the machine meets what it has waited for. A
message that is sent goes out on an open link, since nothing closes a link between two turns.

A turn brings the message two steps closer to its end, so the turns that a call allows itself are
always enough.

## Main definitions

* `LoadRig.MessageCourse.Leads` — some move leads from one course to another.
* `LoadRig.Clock.Session.Later` — what time does to a session.
* `LoadRig.Clock.Session.Follows` — a course that stands where a call stands.

## Main results

* `LoadRig.Clock.Session.follow_succ` — one turn of a call.
* `LoadRig.Clock.Session.Follows.turn` — a turn is a few moves of the course.
* `LoadRig.Clock.Session.Follows.ends` — the turns that are left are enough.
* `LoadRig.Clock.Session.course_of_deliver` — every call is a course, and comes to its end.
* `LoadRig.Clock.Session.sound_of_deliver` — what the outcome of a call tells.
-/

namespace LoadRig

/-! ### Several moves -/

namespace MessageCourse

variable {settings : RetrySettings} {c d : MessageCourse}

/-- Some move leads from one course to another. -/
def Leads (settings : RetrySettings) (c d : MessageCourse) : Prop := ∃ m, c.step settings m = some d

theorem sound_of_leads {before : Nat} (h : Relation.ReflTransGen (Leads settings) c d)
    (hc : c.Sound settings before) : d.Sound settings before := by
  induction h with
  | refl => exact hc
  | tail _ hmove ih =>
    obtain ⟨m, hm⟩ := hmove
    exact sound_step hm ih

/-- Time goes by and the sign to stop is given or not. -/
theorem leads_later (settings : RetrySettings) (c : MessageCourse) {now : Moment}
    {stopping : Bool} (hn : c.now ≤ now) (hs : c.stopping = true → stopping = true) :
    Relation.ReflTransGen (Leads settings) c { c with now, stopping } := by
  have htime : Relation.ReflTransGen (Leads settings) c { c with now } := by
    rcases Nat.eq_or_lt_of_le hn with rfl | hlt
    · exact .refl
    · exact .single ⟨.advance now, if_pos hlt⟩
  cases stopping with
  | true => exact htime.tail ⟨.stop, rfl⟩
  | false =>
    have hnot : c.stopping = false := by simpa using hs
    rw [← hnot]
    exact htime

/-- The machine meets an event that is its due, and an answer only to a message that was written. -/
theorem step_meets {r : Retry} {e : RetryEvent} {y : Line × RetryStatus} (hs : c.status = .going r)
    (hw : ∀ answer linkOpen, e = .replied answer linkOpen → c.current.written = true)
    (hy : r.step settings c.now c.stopping c.line e = some y) :
    c.step settings (.meets e) = some (c.after e y.1 y.2) := by
  cases e with
  | replied answer linkOpen => simp [step, hs, meet, hy, hw answer linkOpen rfl]
  | dialed | rested | interrupted => simp [step, hs, meet, hy]

end MessageCourse

/-! ### Where a message is sent -/

namespace Retry

variable {settings : RetrySettings} {now : Moment} {stopping : Bool} {l : Line} {r : Retry}
  {e : RetryEvent} {y : Line × RetryStatus} {attempt : Nat}

theorem isOpen_of_attempting {n : Nat} (h : (attempting l n).2 = .going ⟨attempt, .sending⟩) :
    (attempting l n).1.connection.isOpen = true := by
  rw [attempting] at h ⊢
  split at h
  · next ho => simp [ho]
  · cases h

theorem fail_ne_sending (settings : RetrySettings) (now : Moment) (n : Nat) (e : AttemptError) :
    fail settings now n e ≠ .going ⟨attempt, .sending⟩ := by
  rw [fail]
  split <;> simp

/-- **A message is sent on an open link**: the connection was found open, or a repair has just
succeeded. -/
theorem Does.isOpen (h : Does settings now stopping l r e y)
    (hy : y.2 = .going ⟨attempt, .sending⟩) : y.1.connection.isOpen = true := by
  cases h with
  | repaired u hs => rfl
  | refused e hs => exact (fail_ne_sending _ _ _ _ hy).elim
  | unanswered e linkOpen hs => exact (fail_ne_sending _ _ _ _ hy).elim
  | acked | interrupted => cases hy
  | rested e deadline hs hd => exact isOpen_of_attempting hy

theorem isOpen_of_start (h : (start settings l).2 = .going ⟨attempt, .sending⟩) :
    (start settings l).1.connection.isOpen = true := by
  rw [start] at h ⊢
  split at h
  · cases h
  · next hK =>
    rw [if_neg hK]
    exact isOpen_of_attempting h

theorem two_le_effort (K : Nat) (r : Retry) : 2 ≤ r.effort K := by
  rw [effort]
  split <;> omega

end Retry

namespace Clock.Session

variable {s s' : Session} {payload : String} {fuel : Nat} {l : Line} {r : Retry}
  {status : RetryStatus} {c : MessageCourse}

/-! ### Time -/

/-- A session some time later. -/
structure Later (s s' : Session) : Prop where
  now_le : s.now ≤ s'.now
  stopping : s.stopping = true → s'.stopping = true
  retry_eq : s'.retry = s.retry

theorem later_notice (s : Session) : s.Later s.notice := by
  rw [notice]
  split
  · exact ⟨Nat.le_refl _, fun h => by simp [h], rfl⟩
  · exact ⟨Nat.le_refl _, id, rfl⟩

theorem later_pass (s : Session) (nanos : Nat) : s.Later (s.pass nanos) := by
  have hnotice := later_notice { s with now := s.now + nanos }
  exact ⟨Nat.le_trans (Nat.le_add_right ..) hnotice.now_le, hnotice.stopping, hnotice.retry_eq⟩

theorem now_pass (s : Session) (nanos : Nat) : (s.pass nanos).now = s.now + nanos := by
  rw [pass, notice]
  split <;> rfl

/-- A sign to stop that has come by then is noticed. -/
theorem stopping_pass {moment : Moment} {nanos : Nat} (hsign : s.sign = .at moment)
    (h : moment ≤ s.now + nanos) : (s.pass nanos).stopping = true := by
  simp [pass, notice, hsign, h]

/-- What the service remembers has no part in the time of a session. -/
theorem Later.of_service {service : Service} (h : ({ s with service } : Session).Later s') :
    s.Later s' :=
  ⟨h.now_le, h.stopping, h.retry_eq⟩

theorem Later.with_service (h : s.Later s') (service : Service) :
    s.Later { s' with service } :=
  ⟨h.now_le, h.stopping, h.retry_eq⟩

theorem later_dial (s : Session) (room : Nat) : s.Later (s.dial room).2 := by
  simp only [dial]
  split
  · exact (later_pass _ _).of_service
  · split
    · exact (later_pass _ _).of_service.with_service _
    · exact (later_pass _ _).of_service

/-! ### One turn of a call -/

/-- What a message can meet at the end of a turn: the end of an opening or of a message on the link,
the sign to stop during a pause, or the end of the pause. -/
inductive Meets (r : Retry) : RetryEvent × Session → Prop
  | dialed (result : Except ConnectError Unit) (s : Session) (hs : r.stage = .dialing) :
      Meets r (.dialed result, s)
  | replied (answer : Except SendError String) (linkOpen : Bool) (s : Session)
      (hs : r.stage = .sending) : Meets r (.replied answer linkOpen, s)
  | interrupted (e : AttemptError) (deadline : Moment) (s : Session)
      (hs : r.stage = .resting e deadline) (h : s.stopping = true) : Meets r (.interrupted, s)
  | rested (e : AttemptError) (deadline : Moment) (s : Session)
      (hs : r.stage = .resting e deadline) (h : deadline ≤ s.now) : Meets r (.rested, s)

/-- A pause that the sign to stop does not end is over when its time has come. -/
theorem meets_rested {e : AttemptError} {deadline : Moment} (s : Session)
    (hs : r.stage = .resting e deadline) : Meets r (.rested, s.pass (deadline - s.now)) := by
  refine .rested e deadline _ hs ?_
  have hnow : (s.pass (deadline - s.now)).now = s.now + (deadline - s.now) := now_pass ..
  rw [hnow]
  exact Nat.sub_le_iff_le_add'.mp (Nat.le_refl _)

theorem meets_turn (s : Session) (l : Line) (r : Retry) (payload : String) :
    Meets r (s.turn l r payload) := by
  rw [turn]
  split
  · next hs => exact .dialed _ _ hs
  · next hs => exact .replied _ _ _ hs
  · next e deadline hs =>
    split
    · next hstop => exact .interrupted e deadline s hs hstop
    · split
      · next moment hsign =>
        split
        · have hle : moment ≤ s.now + (moment - s.now) := Nat.sub_le_iff_le_add'.mp (Nat.le_refl _)
          exact .interrupted e deadline _ hs (stopping_pass hsign hle)
        · exact meets_rested s hs
      · exact meets_rested s hs

theorem later_turn (s : Session) (l : Line) (r : Retry) (payload : String) :
    s.Later (s.turn l r payload).2 := by
  rw [turn]
  split
  · exact later_dial s _
  · exact (later_pass _ _).of_service
  · split
    · exact ⟨Nat.le_refl _, id, rfl⟩
    · split
      · split <;> exact later_pass s _
      · exact later_pass s _

/-- **A turn ends with what the message has waited for.** -/
theorem Meets.step {x : RetryEvent × Session} (h : Meets r x) (l : Line) :
    ∃ y, r.step x.2.retry x.2.now x.2.stopping l x.1 = some y := by
  cases h with
  | dialed result s hs => cases result <;> simp [Retry.step, hs]
  | replied answer linkOpen s hs => cases answer <;> simp [Retry.step, hs]
  | interrupted e deadline s hs h => simp [Retry.step, hs, h]
  | rested e deadline s hs h => simp [Retry.step, hs, h]

/-- **One turn of a call**: time goes by, and the message meets what it has waited for. -/
theorem follow_succ (payload : String) (fuel : Nat) (s : Session) (l : Line) (r : Retry) :
    ∃ e s' y, s.Later s' ∧ r.step s'.retry s'.now s'.stopping l e = some y ∧
      s.follow payload (fuel + 1) l (.going r) = s'.follow payload fuel y.1 y.2 := by
  obtain ⟨y, hy⟩ := (meets_turn s l r payload).step l
  exact ⟨_, _, y, later_turn s l r payload, hy, by simp only [follow, hy]⟩

/-! ### A call is a course -/

/-- A course stands where a call stands between two turns. An attempt under way has not written its
message yet, and a message is about to be sent on an open link. -/
structure Follows (s : Session) (l : Line) (status : RetryStatus) (c : MessageCourse) : Prop where
  line_eq : c.line = l
  now_eq : c.now = s.now
  stopping_eq : c.stopping = s.stopping
  status_eq : c.status = status
  unwritten : status.isTrying = true → c.current.written = false
  isOpen : ∀ attempt, status = .going ⟨attempt, .sending⟩ → l.connection.isOpen = true

theorem follows_start (s : Session) (l : Line) :
    s.Follows (Retry.start s.retry l).1 (Retry.start s.retry l).2
      (MessageCourse.start s.retry l s.now s.stopping) where
  line_eq := rfl
  now_eq := rfl
  stopping_eq := rfl
  status_eq := rfl
  unwritten := fun _ => rfl
  isOpen := fun _ => Retry.isOpen_of_start

/-- A message is written before it is answered, and only then. -/
theorem Follows.exists_written {now : Moment} {stopping : Bool} {e : RetryEvent}
    {y : Line × RetryStatus} (h : s.Follows l (.going r) c)
    (hy : Retry.Does s.retry now stopping l r e y) :
    ∃ written, Relation.ReflTransGen (MessageCourse.Leads s.retry) c
        { c with current := { c.current with written } } ∧
      (∀ answer linkOpen, e = .replied answer linkOpen → written = true) ∧
      (∀ result, e = .dialed result → written = false) := by
  have hwrote : r.stage = .sending →
      Relation.ReflTransGen (MessageCourse.Leads s.retry) c
        { c with current := { c.current with written := true } } := by
    intro hs
    have hopen : c.line.connection.isOpen = true := by
      rw [h.line_eq]
      exact h.isOpen r.attempt (by rw [← hs])
    have hnot : c.current.written = false := h.unwritten (by simp [RetryStatus.isTrying, hs])
    have hstatus : c.status = .going { attempt := r.attempt, stage := .sending } := by
      rw [h.status_eq, ← hs]
    exact .single ⟨.wrote, by simp [MessageCourse.step, hstatus, hopen, hnot]⟩
  cases hy with
  | acked | unanswered => exact ⟨true, hwrote ‹_›, fun _ _ _ => rfl, by simp⟩
  | repaired u hs | refused e hs =>
    have hnot : c.current.written = false := h.unwritten (by simp [RetryStatus.isTrying, hs])
    exact ⟨c.current.written, .refl, by simp, fun _ _ => hnot⟩
  | rested | interrupted => exact ⟨c.current.written, .refl, by simp, by simp⟩

/-- **A turn is a few moves of the course**: the message is written if it is to be answered, time
goes by, and the machine meets what it has waited for. -/
theorem Follows.turn {e : RetryEvent} {y : Line × RetryStatus} (h : s.Follows l (.going r) c)
    (hlater : s.Later s') (hy : r.step s'.retry s'.now s'.stopping l e = some y) :
    ∃ d, Relation.ReflTransGen (MessageCourse.Leads s.retry) c d ∧ s'.Follows y.1 y.2 d := by
  rw [hlater.retry_eq] at hy
  have hdoes := Retry.does_of_step hy
  obtain ⟨written, hcw, hreplied, hdialed⟩ := h.exists_written hdoes
  have htime := MessageCourse.leads_later s.retry
    { c with current := { c.current with written } }
    (h.now_eq ▸ hlater.now_le) (h.stopping_eq ▸ hlater.stopping)
  have hmeets := MessageCourse.step_meets
    (c := { c with current := { c.current with written }, now := s'.now, stopping := s'.stopping })
    h.status_eq hreplied (h.line_eq ▸ hy)
  refine ⟨_, hcw.trans (htime.tail ⟨_, hmeets⟩), rfl, rfl, rfl, rfl, fun htrying => ?_,
    fun _ => hdoes.isOpen⟩
  cases hdoes with
  | repaired u hs => exact hdialed _ rfl
  | rested => rfl
  | acked | interrupted => cases htrying
  | refused | unanswered => simp [Retry.isTrying_fail] at htrying

/-- **The turns that are left are enough.** -/
theorem Follows.ends (h : s.Follows l status c) (hw : status.Within s.retry)
    (hfuel : status.effort s.retry.maxAttempts ≤ 2 * fuel) (payload : String) :
    ∃ o l' s' d, s.follow payload fuel l status = (o, l', s') ∧
      Relation.ReflTransGen (MessageCourse.Leads s.retry) c d ∧ s'.Follows l' (.ended o) d := by
  induction fuel generalizing s l status c with
  | zero =>
    cases status with
    | ended o => exact ⟨o, l, s, c, rfl, .refl, h⟩
    | going r =>
      have htwo := r.two_le_effort s.retry.maxAttempts
      simp only [RetryStatus.effort] at hfuel
      omega
  | succ fuel ih =>
    cases status with
    | ended o => exact ⟨o, l, s, c, rfl, .refl, h⟩
    | going r =>
      obtain ⟨e, s', y, hlater, hy, hfollow⟩ := follow_succ payload fuel s l r
      obtain ⟨d, hcd, hd⟩ := h.turn hlater hy
      have hkept := Retry.within_step hy (hlater.retry_eq ▸ hw)
      have hless := Retry.effort_step hy (hlater.retry_eq ▸ hw)
      rw [hlater.retry_eq] at hless
      simp only [RetryStatus.effort] at hfuel
      obtain ⟨o, l', s'', d', ho, hdd, hd'⟩ := ih hd hkept (by rw [hlater.retry_eq]; omega)
      exact ⟨o, l', s'', d', hfollow.trans ho, hcd.trans (hlater.retry_eq ▸ hdd), hd'⟩

/-- **Every call is a course and comes to its end**: the connection, the counters and the clock are
left as the course leaves them. -/
theorem course_of_deliver (s : Session) (place : Nat) (connection : Connection) (payload : String) :
    ∃ d, Relation.ReflTransGen (MessageCourse.Leads s.retry)
        (.start s.retry { connection, counters := s.counters } s.now s.stopping) d ∧
      d.status = .ended (s.deliver place connection payload).1 ∧
      (s.deliver place connection payload).2.at? place = some d.line.connection ∧
      (s.deliver place connection payload).2.counters = d.line.counters ∧
      (s.deliver place connection payload).2.now = d.now ∧
      (s.deliver place connection payload).2.stopping = d.stopping := by
  have hstart := follows_start s { connection, counters := s.counters }
  have heffort := Retry.effort_start_le s.retry { connection, counters := s.counters }
  obtain ⟨o, l, s', d, hfollow, hreach, hd⟩ :=
    hstart.ends (Retry.within_start s.retry _)
      (show _ ≤ 2 * (3 * s.retry.maxAttempts + 1) by omega) payload
  have hdeliver : s.deliver place connection payload
      = (o, { s' with counters := l.counters }.put place l.connection) := by
    simp only [deliver, hfollow]
  rw [hdeliver]
  exact ⟨d, hreach, hd.status_eq, by simp [at?, put, hd.line_eq], by simp [put, hd.line_eq],
    hd.now_eq.symm, hd.stopping_eq.symm⟩

/-- **What the outcome of a call tells**: the call has tried the message as every message is tried,
and its outcome can be read off the attempts. -/
theorem sound_of_deliver (s : Session) (hK : 1 ≤ s.retry.maxAttempts) (place : Nat)
    (connection : Connection) (payload : String) :
    ∃ d : MessageCourse, d.Sound s.retry s.counters.reconnections ∧
      d.Told s.retry (s.deliver place connection payload).1 ∧
      (s.deliver place connection payload).2.counters.reconnections
        = s.counters.reconnections + d.openings.count false := by
  obtain ⟨d, hleads, hended, -, hcounters, -⟩ := s.course_of_deliver place connection payload
  have hsound := MessageCourse.sound_of_leads hleads (MessageCourse.sound_start s.retry _ _ _ hK)
  exact ⟨d, hsound, hsound.told hended, by rw [hcounters]; exact hsound.reconnections⟩

end Clock.Session

end LoadRig
