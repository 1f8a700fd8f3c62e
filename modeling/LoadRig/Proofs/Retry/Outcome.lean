import LoadRig.Proofs.Retry.Course
/-!
# The outcome of a message

The last attempt decides how a message ends. It was acknowledged, or it failed and was the last one
that is allowed, or it failed and the sign to stop was given during its pause. Which of these is the
case can be read off the results of the attempts, and conversely; and each failed attempt but the last
one that is allowed was followed by its own pause.

A message ends at all because everything that it waits for does: an opening and a message on a link
come to an end, and a pause is over when its time has come. `MessageCourse.rank` counts what is left
to do at most, and every move of the message itself lowers it.

## Main definitions

* `LoadRig.MessageCourse.CameTo` — the result that all attempts together came to.
* `LoadRig.MessageCourse.Told` — what the outcome of a message tells of its attempts and pauses.
* `LoadRig.MessageCourse.Faithful` — what holds at any time in the course of a message.
* `LoadRig.MessageCourse.GoesBy` — a message goes on by itself.

## Main results

* `LoadRig.MessageCourse.Sound.told`, `LoadRig.MessageCourse.Sound.faithful`
* `LoadRig.MessageCourse.exists_move`, `LoadRig.MessageCourse.rank_step` — a message under way can go
  on, and not for ever.
* `LoadRig.MessageCourse.faithful_of_steps` — how every message is tried, and that every message ends.
-/

namespace LoadRig

namespace MessageCourse

variable {settings : RetrySettings} {c c' : MessageCourse} {m : CourseMove} {o : SendOutcome}

/-! ### What the outcome tells -/

/-- How many of some results are failures. -/
def failures (results : List (Except AttemptError String)) : Nat := results.countP fun r => !r.isOk

/-- All attempts so far have failed but the last one, which came to this result. -/
def CameTo (c : MessageCourse) (result : Except AttemptError String) : Prop :=
  ∃ es : List AttemptError, c.results = es.map .error ++ [result]

theorem CameTo.unique {x y : Except AttemptError String} (hx : c.CameTo x) (hy : c.CameTo y) :
    x = y := by
  obtain ⟨es, hes⟩ := hx
  obtain ⟨fs, hfs⟩ := hy
  exact List.singleton_inj.mp (List.append_inj' (hes.symm.trans hfs) rfl).2

theorem CameTo.one_le {x : Except AttemptError String} (h : c.CameTo x) : 1 ≤ c.ended.length := by
  obtain ⟨es, hes⟩ := h
  rw [← List.length_map (f := fun a : EndedAttempt => a.result), ← results, hes]
  simp

/-- What the outcome of a message tells of its attempts and pauses. -/
structure Told (settings : RetrySettings) (c : MessageCourse) (o : SendOutcome) : Prop where
  one_le : 1 ≤ c.ended.length
  acked_iff : ∀ reply attempts,
    o = .acked reply attempts ↔ attempts = c.ended.length ∧ c.CameTo (.ok reply)
  /-- All attempts that are allowed have failed, the last one with this error. -/
  exhausted_iff : ∀ e, o = .failed settings.maxAttempts (some e) false ↔
    c.ended.length = settings.maxAttempts ∧ c.CameTo (.error e)
  /-- A message that failed either came to its last attempt or was interrupted before it. -/
  of_failed : ∀ attempts error interrupted, o = .failed attempts error interrupted →
    attempts = c.ended.length ∧ (∃ e, error = some e ∧ c.CameTo (.error e)) ∧
      if interrupted then attempts < settings.maxAttempts ∧ c.stopping = true
      else attempts = settings.maxAttempts
  /-- The pauses of a message that came to its last attempt and failed, if none of them is cut. -/
  sum_pauses : ∀ error, o = .failed settings.maxAttempts error false → settings.maxAttempts ≤ 33 →
    (∀ attempt < settings.maxAttempts - 1,
      settings.baseBackoff.toNanos * 2 ^ attempt ≤ Duration.longest.toNanos) →
    c.pauses.sum = settings.baseBackoff.toNanos * (2 ^ (settings.maxAttempts - 1) - 1)

/-- What holds at any time in the course of a message: the attempts that have ended are those that
are allowed and went as they should, the repairs are counted as they are seen, and each failed
attempt but the last one that is allowed was followed by its pause. -/
structure Faithful (settings : RetrySettings) (before : Nat) (c : MessageCourse) : Prop where
  le_max : c.ended.length ≤ settings.maxAttempts
  regular : ∀ a ∈ c.ended, a.Regular
  reconnections : c.line.counters.reconnections = before + c.openings.count false
  pauses : c.pauses = settings.pauses (failures (c.results.take (settings.maxAttempts - 1)))
  told : ∀ o, c.status = .ended o → c.Told settings o

/-- The failures among the first results, where the first of all have failed. -/
theorem failures_take (es : List AttemptError) (rest : List (Except AttemptError String)) {n : Nat}
    (hn : es.length ≤ n) :
    failures ((es.map Except.error ++ rest).take n)
      = es.length + failures (rest.take (n - es.length)) := by
  have htake : (es.map Except.error : List (Except AttemptError String)).take n = es.map .error :=
    List.take_of_length_le (by simpa using hn)
  have hall : failures (es.map .error) = es.length := by
    rw [failures, List.countP_map]
    exact List.countP_eq_length.mpr fun e _ => rfl
  rw [List.take_append, htake, failures, List.countP_append, ← failures, ← failures, hall,
    List.length_map]

/-- Attempts have failed and were followed by their pauses, and behind them there is at most one
result, which is followed by none. -/
def Paused (settings : RetrySettings) (c : MessageCourse) : Prop :=
  ∃ (es : List AttemptError) (rest : List (Except AttemptError String)),
    c.results = es.map .error ++ rest ∧ c.pauses = settings.pauses es.length ∧
      es.length < settings.maxAttempts ∧ rest.length ≤ 1 ∧
      failures (rest.take (settings.maxAttempts - 1 - es.length)) = 0

theorem Failed.paused {es : List AttemptError} (hf : c.Failed settings es)
    (hK : es.length < settings.maxAttempts) : c.Paused settings :=
  ⟨es, [], by simpa using hf.1, hf.2, hK, Nat.zero_le 1, by rw [List.take_nil]; rfl⟩

theorem Sound.paused {before : Nat} (hc : c.Sound settings before) : c.Paused settings := by
  have hw := hc.within
  have hst := hc.stands
  generalize c.status = status at hw hst
  cases hst with
  | repairing es hf | sending es hf => exact hf.paused hw
  | resting es e deadline hf =>
    have hlt : es.length + 1 < settings.maxAttempts := hw
    exact hf.paused (by simpa using hlt)
  | interrupted es e hf hK => exact hf.paused (by simpa using hK)
  | acked es reply hr hp hK =>
    refine ⟨es, [.ok reply], hr, hp, hK, Nat.le_refl 1, ?_⟩
    exact Nat.eq_zero_of_le_zero ((List.take_sublist ..).countP_le ..)
  | exhausted es e hr hp hK =>
    refine ⟨es, [.error e], by simpa using hr, hp, by omega, Nat.le_refl 1, ?_⟩
    rw [show settings.maxAttempts - 1 - es.length = 0 by omega]
    rfl

theorem told_acked {reply : String} (h : c.CameTo (.ok reply)) :
    c.Told settings (.acked reply c.ended.length) where
  one_le := h.one_le
  acked_iff := by
    intro reply' attempts
    constructor
    · rintro ⟨⟩
      exact ⟨rfl, h⟩
    · rintro ⟨rfl, h'⟩
      cases h.unique h'
      rfl
  exhausted_iff := fun e => ⟨nofun, fun h' => nomatch h.unique h'.2⟩
  of_failed := nofun
  sum_pauses := nofun

theorem told_failed {e : AttemptError} {interrupted : Bool} (h : c.CameTo (.error e))
    (hend : if interrupted then c.ended.length < settings.maxAttempts ∧ c.stopping = true
      else c.ended.length = settings.maxAttempts)
    (hp : interrupted = false → c.pauses = settings.pauses (settings.maxAttempts - 1)) :
    c.Told settings (.failed c.ended.length (some e) interrupted) where
  one_le := h.one_le
  acked_iff := fun reply attempts => ⟨nofun, fun h' => nomatch h.unique h'.2⟩
  exhausted_iff := by
    intro e'
    constructor
    · intro ho
      injection ho with hlen he hi
      exact ⟨hlen, Option.some.inj he ▸ h⟩
    · rintro ⟨hlen, h'⟩
      cases h.unique h'
      cases interrupted with
      | false => rw [hlen]
      | true =>
        have hlt := hend.1
        omega
  of_failed := by
    rintro _ _ _ ⟨⟩
    exact ⟨rfl, ⟨e, rfl, h⟩, hend⟩
  sum_pauses := by
    rintro error ho hK hfits
    injection ho with _ _ hi
    rw [hp hi]
    exact settings.sum_pauses (by omega) hfits

theorem Sound.told {before : Nat} (hc : c.Sound settings before) (ho : c.status = .ended o) :
    c.Told settings o := by
  have hlength : c.ended.length = c.results.length := (List.length_map _).symm
  have hst := hc.stands
  rw [ho] at hst
  cases hst with
  | acked es reply hr hp hK =>
    have hnumber : es.length + 1 = c.ended.length := by rw [hlength, hr]; simp
    rw [hnumber]
    exact told_acked ⟨es, hr⟩
  | exhausted es e hr hp hK =>
    have hnumber : c.ended.length = settings.maxAttempts := by rw [hlength, hr, ← hK]; simp
    rw [← hnumber]
    refine told_failed ⟨es, by simpa using hr⟩ hnumber fun _ => ?_
    rw [hp, ← hK, Nat.add_sub_cancel]
  | interrupted es e hf hK hstop =>
    have hnumber : es.length + 1 = c.ended.length := by rw [hlength, hf.1]; simp
    rw [hnumber] at hK ⊢
    exact told_failed ⟨es, by simpa using hf.1⟩ ⟨hK, hstop⟩ nofun

theorem Sound.faithful {before : Nat} (hc : c.Sound settings before) :
    c.Faithful settings before where
  le_max := by
    obtain ⟨es, rest, hr, -, hK, hrest, -⟩ := hc.paused
    rw [← List.length_map, ← results, hr, List.length_append, List.length_map]
    omega
  regular := hc.regular
  reconnections := hc.reconnections
  pauses := by
    obtain ⟨es, rest, hr, hp, hK, -, hrest⟩ := hc.paused
    rw [hr, failures_take es rest (by omega), hrest, hp, Nat.add_zero]
  told := fun o => hc.told

/-! ### Every message ends -/

/-- The move that a message waits for, if the far side answers so. -/
def awaits (a : FarSide) (c : MessageCourse) : Option CourseMove :=
  match c.status with
  | .ended _ => none
  | .going r =>
    match r.stage, c.current.written with
    | .sending, false => if c.line.connection.isOpen then some .wrote else some .refused
    | _, _ => some (.meets (r.awaits a))

/-- What is left to do for a message at most, its writing to the link included. -/
def rank (settings : RetrySettings) (c : MessageCourse) : Nat :=
  c.status.effort settings.maxAttempts + (!c.current.written).toNat

theorem rank_step {a : FarSide} (h : c.step settings m = some c') (hw : c.status.Within settings)
    (hm : c.awaits a = some m) : c'.rank settings < c.rank settings := by
  cases does_of_step h with
  | met _ r e y _ hs hy hwrite =>
    rw [hs] at hw
    have hlt := Retry.effort_step hy hw
    have hle := Bool.toNat_le (!(c.sees e).written)
    simp only [rank, hs]
    show y.2.effort settings.maxAttempts + (!(c.sees e).written).toNat
      < r.effort settings.maxAttempts + _
    omega
  | wrote attempt hs hnot =>
    simp [rank, hnot]
  | lost | stop | advance =>
    simp only [awaits] at hm
    split at hm
    · cases hm
    · split at hm
      · split at hm <;> cases hm
      · cases hm

/-- Time costs nothing. -/
theorem rank_advance {now : Moment} (h : c.step settings (.advance now) = some c') :
    c'.rank settings = c.rank settings := by
  cases does_of_step h with
  | advance => rfl
  | met _ r e y hm => simp at hm

/-- **A message under way can go on**, at once or when its pause is over, whatever the far side
answers. -/
theorem exists_move (settings : RetrySettings) {r : Retry} (hs : c.status = .going r) :
    ∃ d, (d = c ∨ ∃ now, c.step settings (.advance now) = some d) ∧
      ∀ a, ∃ m, d.awaits a = some m ∧ (d.step settings m).isSome := by
  obtain ⟨now, hle, hgo⟩ := Retry.exists_step settings c.now c.stopping c.line r
  refine ⟨{ c with now }, ?_, fun a => ?_⟩
  · rcases Nat.eq_or_lt_of_le hle with rfl | hlt
    · exact .inl rfl
    · exact .inr ⟨now, if_pos hlt⟩
  obtain ⟨attempt, stage⟩ := r
  cases stage with
  | dialing =>
    refine ⟨.meets (.dialed a.opening), by simp [awaits, hs, Retry.awaits], ?_⟩
    simpa [step, hs, meet, Retry.awaits] using hgo a
  | resting e deadline =>
    refine ⟨.meets .rested, by simp [awaits, hs, Retry.awaits], ?_⟩
    simpa [step, hs, meet, Retry.awaits] using hgo a
  | sending =>
    cases hw : c.current.written with
    | true =>
      refine ⟨.meets (.replied a.reply a.linkOpen), by simp [awaits, hs, hw, Retry.awaits], ?_⟩
      simpa [step, hs, hw, meet, Retry.awaits] using hgo a
    | false =>
      cases ho : c.line.connection.isOpen with
      | true => exact ⟨.wrote, by simp [awaits, hs, hw, ho], by simp [step, hs, hw, ho]⟩
      | false =>
        refine ⟨.refused, by simp [awaits, hs, hw, ho], ?_⟩
        simpa [step, hs, hw, ho, meet, Retry.awaits] using
          hgo { opening := .ok (), reply := .error .closed, linkOpen := false }

/-- A message goes on by itself, where the far side answers by what it has seen so far; or it waits. -/
def GoesBy (settings : RetrySettings) (answers : MessageCourse → FarSide)
    (c c' : MessageCourse) : Prop :=
  (∃ now, c.step settings (.advance now) = some c') ∨
    ∃ m, c.awaits (answers c) = some m ∧ c.step settings m = some c'

theorem Sound.exists_ended {before : Nat} (hc : c.Sound settings before)
    (answers : MessageCourse → FarSide) :
    ∃ d, Relation.ReflTransGen (GoesBy settings answers) c d ∧ d.Sound settings before ∧
      ∃ o, d.status = .ended o := by
  refine exists_of_rank (rank settings) _ _ (fun c hc => ?_) hc
  cases hs : c.status with
  | ended o => exact .inl ⟨o, rfl⟩
  | going r =>
    obtain ⟨c', hc', hgo⟩ := exists_move settings hs
    obtain ⟨m, hm, hsome⟩ := hgo (answers c')
    obtain ⟨c'', hstep⟩ := Option.isSome_iff_exists.mp hsome
    have hmove : GoesBy settings answers c' c'' := .inr ⟨m, hm, hstep⟩
    -- waiting leaves the rank and what is kept, and the move lowers the rank
    rcases hc' with rfl | ⟨now, hwait⟩
    · exact .inr ⟨c'', .single hmove, sound_step hstep hc, rank_step hstep hc.within hm⟩
    · have hkept := sound_step hwait hc
      refine .inr ⟨c'', .head (.inl ⟨now, hwait⟩) (.single hmove), sound_step hstep hkept, ?_⟩
      rw [← rank_advance hwait]
      exact rank_step hstep hkept.within hm

/-- **How a message is tried**, whatever comes from outside and whenever the sign to stop is given;
and every message ends, whatever the far side answers. -/
theorem faithful_of_steps (settings : RetrySettings) (hK : 1 ≤ settings.maxAttempts) (l : Line)
    (now : Moment) (stopping : Bool) :
    (∀ ms c, (start settings l now stopping).steps settings ms = some c →
      c.Faithful settings l.counters.reconnections) ∧
    ∀ answers : MessageCourse → FarSide, ∃ c o,
      Relation.ReflTransGen (GoesBy settings answers) (start settings l now stopping) c ∧
        c.status = .ended o ∧ c.Told settings o := by
  have hstart := sound_start settings l now stopping hK
  refine ⟨fun ms c h => (sound_steps h hstart).faithful, fun answers => ?_⟩
  obtain ⟨c, hgo, hc, o, ho⟩ := hstart.exists_ended answers
  exact ⟨c, o, hgo, ho, hc.told ho⟩

/-! ### A message on a connection that is not open -/

/-- Two attempts with a pause of ten milliseconds in between. -/
def twice : RetrySettings :=
  { maxAttempts := 2, baseBackoff := .ofMillis 10, ackTimeout := .ofMillis 5 }

/-- The start of a message on a connection that was never opened. -/
def unopened : MessageCourse := start twice { connection := .disconnected 1, counters := {} } 0 false

/-- The first repair fails. After the pause the second one succeeds, and the message is written to
the new link and acknowledged. -/
def mending : List CourseMove :=
  [.meets (.dialed (.error (.rejected "url" "refused"))), .advance 10000000, .meets .rested,
    .meets (.dialed (.ok ())), .wrote, .meets (.replied (.ok "reply") true)]

/-- The course after the acknowledgement. -/
def mended : MessageCourse := (unopened.steps twice mending).get (by decide)

theorem steps_mending : unopened.steps twice mending = some mended := (Option.some_get _).symm

/-- Each of the two attempts has repaired the connection, and the second one was acknowledged after
one pause. -/
theorem faithful_of_mending : unopened.steps twice mending = some mended ∧
    mended.status = .ended (.acked "reply" 2) ∧ mended.CameTo (.ok "reply") ∧
    mended.pauses = [10000000] ∧ mended.line.counters.reconnections = 2 := by
  have hfaithful := (faithful_of_steps twice (by decide) _ 0 false).1 mending mended steps_mending
  have hended : mended.status = .ended (.acked "reply" 2) := by decide
  refine ⟨steps_mending, hended, ?_, ?_, ?_⟩
  · exact (((hfaithful.told _ hended).acked_iff "reply" 2).mp rfl).2
  · rw [hfaithful.pauses]
    decide
  · rw [hfaithful.reconnections]
    decide

end MessageCourse

end LoadRig
