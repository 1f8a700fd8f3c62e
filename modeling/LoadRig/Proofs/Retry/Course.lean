import LoadRig.Proofs.Moves
import LoadRig.Proofs.Retry.Attempts
/-!
# The course of one message

A message is tried on a connection whose link may close by itself, while time goes by and the sign to
stop may be given. `MessageCourse` is the message under way together with these, and with what
somebody sees who watches the connection: of each attempt, whether the connection was open as it
began, what became of the repair if there was one, whether the message was written to the link, and
how the attempt ended; and the pauses that were begun. What is seen is read off the moves and off what
the machine makes of them. The link is asked only while the connection is open; a connection that has
closed in the meantime refuses the message by itself.

What the machine does is then a statement about what was seen. Before the end of the message all
attempts so far have failed, each was followed by its own pause, and the message stands in the stage
that the attempt under way has come to.

## Main definitions

* `LoadRig.Attempt`, `LoadRig.EndedAttempt` — what is seen of an attempt.
* `LoadRig.MessageCourse`, `LoadRig.CourseMove`
* `LoadRig.MessageCourse.step`, `LoadRig.MessageCourse.steps` — what moves make of a course.
* `LoadRig.EndedAttempt.Regular` — an attempt that went as it should.
* `LoadRig.MessageCourse.Stands` — where the message stands after what was seen.
* `LoadRig.MessageCourse.Sound` — the invariant of a course.

## Main results

* `LoadRig.MessageCourse.does_of_step` — what a move can make of a course.
* `LoadRig.MessageCourse.stands_step`, `LoadRig.MessageCourse.regular_step`,
  `LoadRig.MessageCourse.reconnections_step`
* `LoadRig.MessageCourse.sound_step`, `LoadRig.MessageCourse.sound_steps` — every move keeps together
  what was seen and where the message stands.
-/

namespace LoadRig

/-! ### What is seen -/

/-- What is seen of an attempt while it lasts. -/
structure Attempt where
  /-- Whether the connection was open as the attempt began. -/
  wasOpen : Bool
  /-- What became of the repair, if there was one. -/
  repair : Option (Except ConnectError Unit) := none
  /-- Whether the message was written to the link. -/
  written : Bool := false

/-- What was seen of an attempt that has ended. -/
structure EndedAttempt extends Attempt where
  result : Except AttemptError String

/-- A message under way with its connection, the clock and the sign to stop, and what was seen. -/
structure MessageCourse where
  line : Line
  now : Moment
  stopping : Bool
  status : RetryStatus
  /-- The attempt under way; between two attempts the one before. -/
  current : Attempt
  /-- The attempts that have ended, in order. -/
  ended : List EndedAttempt := []
  /-- The pauses that were begun, in order and in nanoseconds. -/
  pauses : List Nat := []

/-- What can happen in the course of a message. -/
inductive CourseMove where
  | meets (e : RetryEvent)
  /-- The message is written to the link. -/
  | wrote
  /-- The connection is found closed instead. -/
  | refused
  /-- The link has closed by itself. -/
  | lost
  | stop
  | advance (now : Moment)

/-- How an event ends the attempt under way, if it does. -/
def RetryEvent.result? : RetryEvent → Option (Except AttemptError String)
  | .dialed (.error e) => some (.error (.connect e))
  | .replied (.ok reply) _ => some (.ok reply)
  | .replied (.error e) _ => some (.error (.send e))
  | _ => none

/-- The pause that a message begins, as far as its status shows one. -/
def RetryStatus.pauseFrom (now : Moment) : RetryStatus → List Nat
  | .going { stage := .resting _ deadline, .. } => [deadline - now]
  | _ => []

namespace MessageCourse

/-- The course of a message that begins now. -/
def start (settings : RetrySettings) (l : Line) (now : Moment) (stopping : Bool) : MessageCourse :=
  let (line, status) := Retry.start settings l
  { line, now, stopping, status, current := { wasOpen := l.connection.isOpen } }

/-- What is seen of the attempt under way at an event. -/
def sees (c : MessageCourse) : RetryEvent → Attempt
  | .dialed r => { c.current with repair := some r }
  | .rested => { wasOpen := c.line.connection.isOpen }
  | _ => c.current

/-- The course after an event that made `line` of the connection and `status` of the message. -/
def after (c : MessageCourse) (e : RetryEvent) (line : Line) (status : RetryStatus) :
    MessageCourse :=
  { c with
    line
    status
    current := c.sees e
    ended := c.ended ++ (e.result?.map fun result => { c.sees e with result }).toList
    pauses := c.pauses ++ status.pauseFrom c.now }

/-- The machine meets an event. -/
def meet (settings : RetrySettings) (c : MessageCourse) (r : Retry) (e : RetryEvent) :
    Option MessageCourse :=
  (r.step settings c.now c.stopping c.line e).map fun x => c.after e x.1 x.2

/-- What a move makes of a course; nothing if the move cannot happen. The link answers a message that
was written to it, and nothing is written to a link that is not open. -/
def step (settings : RetrySettings) (c : MessageCourse) : CourseMove → Option MessageCourse
  | .meets e =>
    match c.status, e with
    | .ended _, _ => none
    | .going r, .replied answer linkOpen =>
      if c.current.written then c.meet settings r (.replied answer linkOpen) else none
    | .going r, e => c.meet settings r e
  | .wrote =>
    match c.status with
    | .going { stage := .sending, .. } =>
      if c.line.connection.isOpen && !c.current.written then
        some { c with current := { c.current with written := true } }
      else none
    | _ => none
  | .refused =>
    match c.status with
    | .going r =>
      if c.line.connection.isOpen || c.current.written then none
      else c.meet settings r (.replied (.error .closed) false)
    | .ended _ => none
  | .lost => some { c with line := { c.line with connection := c.line.connection.lose } }
  | .stop => some { c with stopping := true }
  | .advance now => if c.now < now then some { c with now } else none

/-- What a list of moves makes of a course. -/
def steps (settings : RetrySettings) (c : MessageCourse) (ms : List CourseMove) :
    Option MessageCourse :=
  Moves.follow (step settings) c ms

/-- How the attempts that have ended did end. -/
def results (c : MessageCourse) : List (Except AttemptError String) := c.ended.map (·.result)

theorem results_after (c : MessageCourse) (e : RetryEvent) (line : Line) (status : RetryStatus) :
    (c.after e line status).results = c.results ++ e.result?.toList := by
  cases h : e.result? <;> simp [after, results, h]

/-! ### Single moves -/

variable {settings : RetrySettings} {c c' : MessageCourse} {m : CourseMove}

/-- What a move can make of a course: the machine meets an event that is its due, the message is
written, or something comes from outside. -/
inductive Does (settings : RetrySettings) (c : MessageCourse) : CourseMove → MessageCourse → Prop
  | met (m : CourseMove) (r : Retry) (e : RetryEvent) (y : Line × RetryStatus)
      (hm : m = .meets e ∨ m = .refused) (hs : c.status = .going r)
      (hy : r.step settings c.now c.stopping c.line e = some y)
      (hw : ∀ reply linkOpen, e = .replied (.ok reply) linkOpen → c.current.written = true) :
      Does settings c m (c.after e y.1 y.2)
  | wrote (attempt : Nat) (hs : c.status = .going ⟨attempt, .sending⟩)
      (hw : c.current.written = false) :
      Does settings c .wrote { c with current := { c.current with written := true } }
  | lost : Does settings c .lost
      { c with line := { c.line with connection := c.line.connection.lose } }
  | stop : Does settings c .stop { c with stopping := true }
  | advance (now : Moment) : Does settings c (.advance now) { c with now }

theorem does_of_step (h : c.step settings m = some c') : Does settings c m c' := by
  cases m with
  | meets e =>
    simp only [step] at h
    split at h
    · cases h
    · next r answer linkOpen hs =>
      split at h
      · next hw =>
        obtain ⟨y, hy, rfl⟩ := Option.map_eq_some_iff.mp h
        exact .met _ r _ y (.inl rfl) hs hy fun _ _ _ => hw
      · cases h
    · next r hs hne =>
      obtain ⟨y, hy, rfl⟩ := Option.map_eq_some_iff.mp h
      exact .met _ r _ y (.inl rfl) hs hy fun reply linkOpen he => absurd he (hne _ _)
  | wrote =>
    simp only [step] at h
    split at h
    · next attempt hs =>
      split at h
      · next hw =>
        rw [← Option.some.inj h]
        exact .wrote attempt hs (by simpa using (Bool.and_eq_true_iff.mp hw).2)
      · cases h
    · cases h
  | refused =>
    simp only [step] at h
    split at h
    · next r hs =>
      split at h
      · cases h
      · obtain ⟨y, hy, rfl⟩ := Option.map_eq_some_iff.mp h
        exact .met _ r _ y (.inr rfl) hs hy (by simp)
    · cases h
  | lost =>
    rw [← Option.some.inj h]
    exact .lost
  | stop =>
    rw [← Option.some.inj h]
    exact .stop
  | advance now =>
    simp only [step] at h
    split at h
    · rw [← Option.some.inj h]
      exact .advance now
    · cases h

end MessageCourse

/-! ### Where a message stands -/

/-- The message of an attempt may go out: the connection was open, or it was repaired. -/
def Attempt.Ready (a : Attempt) : Prop :=
  (a.wasOpen = true ∧ a.repair = none) ∨ (a.wasOpen = false ∧ a.repair = some (.ok ()))

/-- An attempt went as it should. There was a repair exactly if the connection was not open, and it
ended the attempt exactly if it failed; the message was written to the link only while the
connection was open or after a repair that succeeded, and only then acknowledged. -/
structure EndedAttempt.Regular (a : EndedAttempt) : Prop where
  repair_iff : a.repair.isSome = true ↔ a.wasOpen = false
  refused_iff : ∀ e, a.result = .error (.connect e) ↔ a.repair = some (.error e)
  written_only : a.written = true → a.wasOpen = true ∨ a.repair = some (.ok ())
  acked_only : ∀ reply, a.result = .ok reply → a.written = true

theorem EndedAttempt.regular_refused (e : ConnectError) :
    EndedAttempt.Regular
      { wasOpen := false, repair := some (.error e), result := .error (.connect e) } where
  repair_iff := by simp
  refused_iff := fun e' => by simp
  written_only := nofun
  acked_only := nofun

theorem EndedAttempt.regular_of_ready {a : EndedAttempt} (ha : a.toAttempt.Ready)
    (hr : ∀ e, a.result ≠ .error (.connect e))
    (hw : ∀ reply, a.result = .ok reply → a.written = true) : a.Regular where
  repair_iff := by rcases ha with ⟨ho, hn⟩ | ⟨ho, hn⟩ <;> simp [ho, hn]
  refused_iff := fun e => by rcases ha with ⟨-, hn⟩ | ⟨-, hn⟩ <;> simp [hr e, hn]
  written_only := fun _ => ha.imp And.left And.right
  acked_only := hw

namespace MessageCourse

variable {settings : RetrySettings} {c c' : MessageCourse} {m : CourseMove}

/-- Attempts have failed with these errors, and each was followed by its pause. -/
def Failed (settings : RetrySettings) (c : MessageCourse) (es : List AttemptError) : Prop :=
  c.results = es.map .error ∧ c.pauses = settings.pauses es.length

/-- Where a message stands after what was seen: before its end all attempts so far have failed, and
its end is decided by the last one. -/
inductive Stands (settings : RetrySettings) (c : MessageCourse) : RetryStatus → Prop
  | repairing (es : List AttemptError) (hf : c.Failed settings es)
      (ha : c.current = { wasOpen := false }) : Stands settings c (.going ⟨es.length, .dialing⟩)
  | sending (es : List AttemptError) (hf : c.Failed settings es) (ha : c.current.Ready) :
      Stands settings c (.going ⟨es.length, .sending⟩)
  | resting (es : List AttemptError) (e : AttemptError) (deadline : Moment)
      (hf : c.Failed settings (es ++ [e])) :
      Stands settings c (.going ⟨es.length, .resting e deadline⟩)
  | acked (es : List AttemptError) (reply : String)
      (hr : c.results = es.map .error ++ [.ok reply]) (hp : c.pauses = settings.pauses es.length)
      (hK : es.length < settings.maxAttempts) :
      Stands settings c (.ended (.acked reply (es.length + 1)))
  | exhausted (es : List AttemptError) (e : AttemptError)
      (hr : c.results = (es ++ [e]).map .error) (hp : c.pauses = settings.pauses es.length)
      (hK : es.length + 1 = settings.maxAttempts) :
      Stands settings c (.ended (.failed settings.maxAttempts (some e) false))
  | interrupted (es : List AttemptError) (e : AttemptError) (hf : c.Failed settings (es ++ [e]))
      (hK : es.length + 1 < settings.maxAttempts) (hstop : c.stopping = true) :
      Stands settings c (.ended (.failed (es.length + 1) (some e) true))

/-- What comes from outside leaves a message where it stands. -/
theorem Stands.congr {status : RetryStatus} (h : c.Stands settings status)
    (hr : c'.results = c.results) (hp : c'.pauses = c.pauses) (ha : c'.current = c.current)
    (hs : c.stopping = true → c'.stopping = true) : c'.Stands settings status := by
  cases h with
  | repairing es hf h => exact .repairing es ⟨hr.trans hf.1, hp.trans hf.2⟩ (ha.trans h)
  | sending es hf h => exact .sending es ⟨hr.trans hf.1, hp.trans hf.2⟩ (ha ▸ h)
  | resting es e deadline hf => exact .resting es e deadline ⟨hr.trans hf.1, hp.trans hf.2⟩
  | acked es reply hres hpau hK => exact .acked es reply (hr.trans hres) (hp.trans hpau) hK
  | exhausted es e hres hpau hK => exact .exhausted es e (hr.trans hres) (hp.trans hpau) hK
  | interrupted es e hf hK hstop =>
    exact .interrupted es e ⟨hr.trans hf.1, hp.trans hf.2⟩ hK (hs hstop)

theorem Stands.of_dialing {r : Retry} (h : c.Stands settings (.going r)) (hs : r.stage = .dialing) :
    ∃ es : List AttemptError, r.attempt = es.length ∧ c.Failed settings es ∧
      c.current = { wasOpen := false } := by
  cases h with
  | repairing es hf ha => exact ⟨es, rfl, hf, ha⟩
  | sending | resting => cases hs

theorem Stands.of_sending {r : Retry} (h : c.Stands settings (.going r)) (hs : r.stage = .sending) :
    ∃ es : List AttemptError, r.attempt = es.length ∧ c.Failed settings es ∧ c.current.Ready := by
  cases h with
  | sending es hf ha => exact ⟨es, rfl, hf, ha⟩
  | repairing | resting => cases hs

theorem Stands.of_resting {r : Retry} {e : AttemptError} {deadline : Moment}
    (h : c.Stands settings (.going r)) (hs : r.stage = .resting e deadline) :
    ∃ es : List AttemptError, r.attempt = es.length ∧ c.Failed settings (es ++ [e]) := by
  cases h with
  | resting es e' deadline' hf => cases hs; exact ⟨es, rfl, hf⟩
  | repairing | sending => cases hs

/-- An attempt begins after the ones that have failed. -/
theorem stands_attempting (l : Line) {es : List AttemptError} (hf : c.Failed settings es)
    (ha : c.current = { wasOpen := l.connection.isOpen }) :
    c.Stands settings (Retry.attempting l es.length).2 := by
  rw [Retry.attempting]
  split
  · next ho => exact .sending es hf (.inl (by simp [ha, ho]))
  · next ho => exact .repairing es hf (by simpa [ho] using ha)

/-- One more attempt has failed. -/
theorem stands_fail (now : Moment) {es : List AttemptError} {e : AttemptError}
    (hr : c.results = (es ++ [e]).map .error)
    (hp : c.pauses
      = settings.pauses es.length ++ (Retry.fail settings now es.length e).pauseFrom now) :
    c.Stands settings (Retry.fail settings now es.length e) := by
  by_cases hlast : es.length + 1 = settings.maxAttempts
  · simp only [Retry.fail, if_pos hlast, RetryStatus.pauseFrom, List.append_nil] at hp ⊢
    exact .exhausted es e hr hp hlast
  · simp only [Retry.fail, if_neg hlast, RetryStatus.pauseFrom, Nat.add_sub_cancel_left] at hp ⊢
    refine .resting es e _ ⟨hr, ?_⟩
    rw [hp, List.length_append, List.length_singleton, RetrySettings.pauses_succ]

theorem stands_start (settings : RetrySettings) (l : Line) (now : Moment) (stopping : Bool)
    (hK : 1 ≤ settings.maxAttempts) :
    (start settings l now stopping).Stands settings (start settings l now stopping).status := by
  have hstatus : (start settings l now stopping).status = (Retry.attempting l 0).2 := by
    rw [start, Retry.start, if_neg (Nat.ne_of_gt hK)]
  have hnone : (start settings l now stopping).Failed settings [] := ⟨rfl, rfl⟩
  rw [hstatus]
  exact stands_attempting l hnone rfl

theorem stands_step (h : c.step settings m = some c') (hw : c.status.Within settings)
    (hc : c.Stands settings c.status) : c'.Stands settings c'.status := by
  cases does_of_step h with
  | lost | advance => exact hc.congr rfl rfl rfl id
  | stop => exact hc.congr rfl rfl rfl fun _ => rfl
  | wrote attempt hs hnot =>
    rw [hs] at hc
    obtain ⟨es, hes, hf, ha⟩ := hc.of_sending rfl
    show Stands settings _ c.status
    rw [hs, show attempt = es.length from hes]
    exact .sending es hf ha
  | met _ r e y hm hs hy hwrite =>
    rw [hs] at hc hw
    have hlt : r.attempt < settings.maxAttempts := Retry.Within.attempt_lt hw
    show Stands settings _ y.2
    cases Retry.does_of_step hy with
    | repaired u hstage =>
      obtain ⟨es, hes, hf, ha⟩ := hc.of_dialing hstage
      rw [hes]
      refine .sending es ⟨?_, ?_⟩ (.inr ?_)
      · simpa [results_after, RetryEvent.result?] using hf.1
      · simpa [after, RetryStatus.pauseFrom] using hf.2
      · simp [after, sees, ha]
    | refused e hstage =>
      obtain ⟨es, hes, hf, -⟩ := hc.of_dialing hstage
      rw [hes] at hlt ⊢
      refine stands_fail c.now ?_ ?_
      · simp [results_after, RetryEvent.result?, hf.1]
      · simp [after, hf.2]
    | acked reply linkOpen hstage =>
      obtain ⟨es, hes, hf, -⟩ := hc.of_sending hstage
      rw [hes] at hlt ⊢
      refine .acked es reply ?_ ?_ hlt
      · simp [results_after, RetryEvent.result?, hf.1]
      · simpa [after, RetryStatus.pauseFrom] using hf.2
    | unanswered e linkOpen hstage =>
      obtain ⟨es, hes, hf, -⟩ := hc.of_sending hstage
      rw [hes] at hlt ⊢
      refine stands_fail c.now ?_ ?_
      · simp [results_after, RetryEvent.result?, hf.1]
      · simp [after, hf.2]
    | rested e deadline hstage hd =>
      obtain ⟨es, hes, hf⟩ := hc.of_resting hstage
      have hnumber : r.attempt + 1 = (es ++ [e]).length := by simp [hes]
      rw [hnumber]
      refine stands_attempting c.line ⟨?_, ?_⟩ rfl
      · simpa [results_after, RetryEvent.result?] using hf.1
      · rw [← hf.2]
        simp only [after, Retry.attempting]
        split <;> simp [RetryStatus.pauseFrom]
    | interrupted e deadline hstage hstop =>
      obtain ⟨es, hes, hf⟩ := hc.of_resting hstage
      have hnext := Retry.Within.next_lt hw hstage
      rw [hes] at hnext ⊢
      refine .interrupted es e ⟨?_, ?_⟩ hnext hstop
      · simpa [results_after, RetryEvent.result?] using hf.1
      · simpa [after, RetryStatus.pauseFrom] using hf.2

/-! ### What is kept -/

theorem regular_step (h : c.step settings m = some c') (hc : c.Stands settings c.status)
    (hr : ∀ a ∈ c.ended, a.Regular) : ∀ a ∈ c'.ended, a.Regular := by
  -- an event adds at most the attempt that it ends
  have hadd : ∀ {e : RetryEvent} {line : Line} {status : RetryStatus},
      (∀ result, e.result? = some result → { c.sees e with result : EndedAttempt }.Regular) →
      ∀ a ∈ (c.after e line status).ended, a.Regular := by
    intro e line status hnew a ha
    rcases List.mem_append.mp ha with ha | ha
    · exact hr a ha
    · obtain ⟨result, hresult, rfl⟩ := by simpa using ha
      exact hnew result hresult
  cases does_of_step h with
  | wrote | lost | stop | advance => exact hr
  | met _ r e y hm hs hy hwrite =>
    rw [hs] at hc
    refine hadd fun result hresult => ?_
    cases Retry.does_of_step hy with
    | repaired | rested | interrupted => cases hresult
    | refused e hstage =>
      obtain ⟨es, -, -, ha⟩ := hc.of_dialing hstage
      cases hresult
      simpa only [sees, ha] using EndedAttempt.regular_refused e
    | acked reply linkOpen hstage =>
      obtain ⟨es, -, -, ha⟩ := hc.of_sending hstage
      cases hresult
      exact EndedAttempt.regular_of_ready ha nofun fun _ _ => hwrite reply linkOpen rfl
    | unanswered e linkOpen hstage =>
      obtain ⟨es, -, -, ha⟩ := hc.of_sending hstage
      cases hresult
      exact EndedAttempt.regular_of_ready ha nofun nofun

end MessageCourse

/-- Whether an attempt is under way. -/
def RetryStatus.isTrying : RetryStatus → Bool
  | .going r =>
    match r.stage with
    | .dialing | .sending => true
    | .resting _ _ => false
  | .ended _ => false

theorem Retry.isTrying_attempting (l : Line) (attempt : Nat) :
    (attempting l attempt).2.isTrying = true := by
  rw [attempting]
  split <;> rfl

theorem Retry.isTrying_fail (settings : RetrySettings) (now : Moment) (attempt : Nat)
    (e : AttemptError) : (fail settings now attempt e).isTrying = false := by
  rw [fail]
  split <;> rfl

theorem Retry.reconnections_attempting (l : Line) (attempt : Nat) :
    (attempting l attempt).1.counters.reconnections
      = l.counters.reconnections + (!l.connection.isOpen).toNat := by
  rw [attempting]
  split <;> simp_all [Line.redial, Counters.addReconnection]

theorem Line.reconnections_settle (l : Line) (r : Except ConnectError Unit) :
    (l.settle r).counters.reconnections = l.counters.reconnections := by
  cases r <;> rfl

namespace MessageCourse

variable {settings : RetrySettings} {c c' : MessageCourse} {m : CourseMove}

/-- Whether the connection was open, for each attempt that has begun. -/
def openings (c : MessageCourse) : List Bool :=
  c.ended.map (·.wasOpen) ++ if c.status.isTrying then [c.current.wasOpen] else []

theorem openings_after (c : MessageCourse) (e : RetryEvent) (line : Line) (status : RetryStatus) :
    (c.after e line status).openings = c.ended.map (·.wasOpen) ++
      ((e.result?.map fun _ => (c.sees e).wasOpen).toList ++
        if status.isTrying then [(c.sees e).wasOpen] else []) := by
  cases h : e.result? <;> simp [openings, after, h]

/-- **The repairs are counted as they are seen**: one for each attempt that found the connection not
open. -/
theorem reconnections_step {before : Nat} (h : c.step settings m = some c')
    (hc : c.line.counters.reconnections = before + c.openings.count false) :
    c'.line.counters.reconnections = before + c'.openings.count false := by
  cases does_of_step h with
  | lost | stop | advance | wrote => exact hc
  | met _ r e y hm hs hy hwrite =>
    rw [openings_after]
    simp only [openings, hs] at hc
    show y.1.counters.reconnections = _
    cases Retry.does_of_step hy with
    | repaired u hstage =>
      rw [Line.reconnections_settle, hc]
      simp [RetryStatus.isTrying, RetryEvent.result?, sees, hstage]
    | refused e hstage =>
      rw [Line.reconnections_settle, hc]
      simp only [Retry.isTrying_fail]
      simp [RetryStatus.isTrying, RetryEvent.result?, sees, hstage]
    | acked reply linkOpen hstage =>
      rw [show (c.line.answered linkOpen).counters = c.line.counters from rfl, hc]
      simp [RetryStatus.isTrying, RetryEvent.result?, sees, hstage]
    | unanswered e linkOpen hstage =>
      rw [show (c.line.answered linkOpen).counters = c.line.counters from rfl, hc]
      simp only [Retry.isTrying_fail]
      simp [RetryStatus.isTrying, RetryEvent.result?, sees, hstage]
    | rested e deadline hstage hd =>
      rw [Retry.reconnections_attempting, hc]
      simp only [Retry.isTrying_attempting]
      cases ho : c.line.connection.isOpen <;>
        simp [RetryStatus.isTrying, RetryEvent.result?, sees, hstage, ho, Nat.add_assoc]
    | interrupted e deadline hstage hstop =>
      rw [hc]
      simp [RetryStatus.isTrying, RetryEvent.result?, hstage]

/-- What is kept by every move: where the message stands, the number of its attempt, and what was
seen of the attempts. -/
structure Sound (settings : RetrySettings) (before : Nat) (c : MessageCourse) : Prop where
  stands : c.Stands settings c.status
  within : c.status.Within settings
  regular : ∀ a ∈ c.ended, a.Regular
  reconnections : c.line.counters.reconnections = before + c.openings.count false

theorem sound_start (settings : RetrySettings) (l : Line) (now : Moment) (stopping : Bool)
    (hK : 1 ≤ settings.maxAttempts) :
    (start settings l now stopping).Sound settings l.counters.reconnections where
  stands := stands_start settings l now stopping hK
  within := Retry.within_start settings l
  regular := nofun
  reconnections := by
    rw [openings, start, Retry.start, if_neg (Nat.ne_of_gt hK)]
    simp only [Retry.isTrying_attempting, Retry.reconnections_attempting]
    cases l.connection.isOpen <;> rfl

theorem within_step (h : c.step settings m = some c') (hw : c.status.Within settings) :
    c'.status.Within settings := by
  cases does_of_step h with
  | wrote | lost | stop | advance => exact hw
  | met _ r e y hm hs hy hwrite =>
    rw [hs] at hw
    exact Retry.within_step hy hw

/-- **Every move keeps together what was seen and where the message stands.** -/
theorem sound_step {before : Nat} (h : c.step settings m = some c') (hc : c.Sound settings before) :
    c'.Sound settings before where
  stands := stands_step h hc.within hc.stands
  within := within_step h hc.within
  regular := regular_step h hc.stands hc.regular
  reconnections := reconnections_step h hc.reconnections

theorem sound_steps {before : Nat} {ms : List CourseMove} (h : c.steps settings ms = some c')
    (hc : c.Sound settings before) : c'.Sound settings before :=
  Moves.invariant (fun _ _ _ hs hstep => sound_step hstep hs) h hc

end MessageCourse

end LoadRig
