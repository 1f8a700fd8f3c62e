import LoadRig.Proofs.Retry.Backoff
import Mathlib.Logic.Relation
/-!
# The attempts of a message

A message under way waits for one thing at a time, and `Retry.Does` says what each event makes of
it. Two facts follow that everything else about retrying rests on. The attempts are counted from
zero and stay below the number that is allowed; and there is a number, `Retry.effort`, that every
event lowers, so that a message ends whatever the far side does.

The effort falls by two at every event and not by one. An event may leave a link open that can close
by itself later, and the second unit pays for that.

The pauses between the attempts double while the factor has thirty-two bits. As long as none of them
is cut at the longest duration, they add up to a geometric sum.

## Main definitions

* `LoadRig.Retry.Does` — what an event makes of a message under way.
* `LoadRig.Retry.Within`, `LoadRig.RetryStatus.Within` — the attempts stay below the allowed number.
* `LoadRig.Retry.effort`, `LoadRig.RetryStatus.effort` — what is left to do at most.
* `LoadRig.FarSide`, `LoadRig.Retry.awaits` — what a message waits for.
* `LoadRig.RetrySettings.pauses` — the first pauses, in nanoseconds.

## Main results

* `LoadRig.Retry.does_of_step` — every step is one of the cases.
* `LoadRig.Retry.within_start`, `LoadRig.Retry.within_step`
* `LoadRig.Retry.effort_start_le`, `LoadRig.Retry.effort_step`
* `LoadRig.Retry.exists_step` — a message under way can go on, whatever the far side answers.
* `LoadRig.exists_of_rank` — what goes on while a rank falls comes to its end.
* `LoadRig.RetrySettings.sum_pauses` — the first pauses together.
-/

namespace LoadRig

namespace Retry

/-- What an event can make of a message under way and of its connection: one case for each thing
that a message waits for and each answer to it. -/
inductive Does (settings : RetrySettings) (now : Moment) (stopping : Bool) (l : Line) (r : Retry) :
    RetryEvent → Line × RetryStatus → Prop
  | repaired (u : Unit) (hs : r.stage = .dialing) :
      Does settings now stopping l r (.dialed (.ok u))
        (l.settle (.ok u), .going { r with stage := .sending })
  | refused (e : ConnectError) (hs : r.stage = .dialing) :
      Does settings now stopping l r (.dialed (.error e))
        (l.settle (.error e), fail settings now r.attempt (.connect e))
  | acked (reply : String) (linkOpen : Bool) (hs : r.stage = .sending) :
      Does settings now stopping l r (.replied (.ok reply) linkOpen)
        (l.answered linkOpen, .ended (.acked reply (r.attempt + 1)))
  | unanswered (e : SendError) (linkOpen : Bool) (hs : r.stage = .sending) :
      Does settings now stopping l r (.replied (.error e) linkOpen)
        (l.answered linkOpen, fail settings now r.attempt (.send e))
  | rested (e : AttemptError) (deadline : Moment) (hs : r.stage = .resting e deadline)
      (h : deadline ≤ now) :
      Does settings now stopping l r .rested (attempting l (r.attempt + 1))
  | interrupted (e : AttemptError) (deadline : Moment) (hs : r.stage = .resting e deadline)
      (h : stopping = true) :
      Does settings now stopping l r .interrupted
        (l, .ended (.failed (r.attempt + 1) (some e) true))

variable {settings : RetrySettings} {now : Moment} {stopping : Bool} {l : Line} {r : Retry}
  {e : RetryEvent} {y : Line × RetryStatus}

theorem does_of_step (h : r.step settings now stopping l e = some y) :
    Does settings now stopping l r e y := by
  unfold step at h
  split at h
  · next result =>
    split at h
    · next hs =>
      cases result with
      | ok u => rw [← Option.some.inj h]; exact .repaired u hs
      | error e => rw [← Option.some.inj h]; exact .refused e hs
    · cases h
  · next result linkOpen =>
    split at h
    · next hs =>
      cases result with
      | ok reply => rw [← Option.some.inj h]; exact .acked reply linkOpen hs
      | error e => rw [← Option.some.inj h]; exact .unanswered e linkOpen hs
    · cases h
  · split at h
    · next e deadline hs =>
      split at h
      · next hd => rw [← Option.some.inj h]; exact .rested e deadline hs hd
      · cases h
    · cases h
  · split at h
    · next e deadline hs =>
      split at h
      · next hstop => rw [← Option.some.inj h]; exact .interrupted e deadline hs hstop
      · cases h
    · cases h

/-! ### The number of an attempt -/

/-- The current attempt is one of those that are allowed, and after a pause there is another. -/
def Within (settings : RetrySettings) (r : Retry) : Prop :=
  match r.stage with
  | .dialing | .sending => r.attempt < settings.maxAttempts
  | .resting _ _ => r.attempt + 1 < settings.maxAttempts

theorem Within.attempt_lt (h : r.Within settings) : r.attempt < settings.maxAttempts := by
  cases hs : r.stage with
  | dialing | sending => simpa only [Within, hs] using h
  | resting e deadline =>
    simp only [Within, hs] at h
    omega

theorem Within.next_lt (h : r.Within settings) {e : AttemptError} {deadline : Moment}
    (hs : r.stage = .resting e deadline) : r.attempt + 1 < settings.maxAttempts := by
  simpa only [Within, hs] using h

end Retry

/-- A message has ended, or its attempt is one of those that are allowed. -/
def RetryStatus.Within (settings : RetrySettings) : RetryStatus → Prop
  | .going r => r.Within settings
  | .ended _ => True

namespace Retry

variable {settings : RetrySettings} {now : Moment} {stopping : Bool} {l : Line} {r : Retry}
  {e : RetryEvent} {y : Line × RetryStatus}

theorem within_attempting (l : Line) {attempt : Nat} (h : attempt < settings.maxAttempts) :
    (attempting l attempt).2.Within settings := by
  rw [attempting]
  split <;> exact h

theorem within_fail (now : Moment) {attempt : Nat} (e : AttemptError)
    (h : attempt < settings.maxAttempts) : (fail settings now attempt e).Within settings := by
  rw [fail]
  split
  · exact trivial
  · next hlast =>
    show attempt + 1 < settings.maxAttempts
    omega

theorem within_start (settings : RetrySettings) (l : Line) :
    (start settings l).2.Within settings := by
  rw [start]
  split
  · exact trivial
  · next hK => exact within_attempting l (Nat.pos_of_ne_zero hK)

/-- **No attempt goes beyond those that are allowed.** -/
theorem within_step (h : r.step settings now stopping l e = some y) (hw : r.Within settings) :
    y.2.Within settings := by
  cases does_of_step h with
  | repaired u hs => exact hw.attempt_lt
  | refused e hs => exact within_fail now _ hw.attempt_lt
  | acked reply linkOpen hs => exact trivial
  | unanswered e linkOpen hs => exact within_fail now _ hw.attempt_lt
  | rested e deadline hs hd => exact within_attempting l (hw.next_lt hs)
  | interrupted e deadline hs hstop => exact trivial

/-! ### What is left to do -/

/-- What is left to do for a message under way at most, if so many attempts are allowed: six for
each attempt to come, and for the current one according to its stage. -/
def effort (maxAttempts : Nat) (r : Retry) : Nat :=
  6 * (maxAttempts - 1 - r.attempt) +
    match r.stage with
    | .dialing => 6
    | .sending => 4
    | .resting _ _ => 2

end Retry

/-- What is left to do for a message, which is nothing at its end. -/
def RetryStatus.effort (maxAttempts : Nat) : RetryStatus → Nat
  | .going r => r.effort maxAttempts
  | .ended _ => 0

namespace Retry

variable {settings : RetrySettings} {now : Moment} {stopping : Bool} {l : Line} {r : Retry}
  {e : RetryEvent} {y : Line × RetryStatus}

theorem effort_attempting_le (K : Nat) (l : Line) (attempt : Nat) :
    (attempting l attempt).2.effort K ≤ 6 * (K - 1 - attempt) + 6 := by
  rw [attempting]
  split <;> simp [RetryStatus.effort, effort]

theorem effort_fail_le (settings : RetrySettings) (now : Moment) (attempt : Nat) (e : AttemptError) :
    (fail settings now attempt e).effort settings.maxAttempts
      ≤ 6 * (settings.maxAttempts - 1 - attempt) + 2 := by
  rw [fail]
  split <;> simp [RetryStatus.effort, effort]

theorem effort_start_le (settings : RetrySettings) (l : Line) :
    (start settings l).2.effort settings.maxAttempts ≤ 6 * settings.maxAttempts := by
  rw [start]
  split
  · exact Nat.zero_le _
  · have hfirst := effort_attempting_le settings.maxAttempts l 0
    omega

/-- **Every event brings a message two steps closer to its end.** -/
theorem effort_step (h : r.step settings now stopping l e = some y) (hw : r.Within settings) :
    y.2.effort settings.maxAttempts + 2 ≤ r.effort settings.maxAttempts := by
  cases does_of_step h with
  | repaired u hs => simp [RetryStatus.effort, effort, hs]
  | refused e hs =>
    have hfail := effort_fail_le settings now r.attempt (.connect e)
    simp only [effort, hs]
    omega
  | acked reply linkOpen hs =>
    simp only [RetryStatus.effort, effort, hs]
    omega
  | unanswered e linkOpen hs =>
    have hfail := effort_fail_le settings now r.attempt (.send e)
    simp only [effort, hs]
    omega
  | rested e deadline hs hd =>
    have hnext := hw.next_lt hs
    have hle := effort_attempting_le settings.maxAttempts l (r.attempt + 1)
    simp only [effort, hs]
    omega
  | interrupted e deadline hs hstop =>
    simp only [RetryStatus.effort, effort, hs]
    omega

end Retry

/-! ### Going on -/

/-- What can go on to a state of lower rank as long as it is not done can be brought to its end. -/
theorem exists_of_rank {α : Type} {R : α → α → Prop} (rank : α → Nat) (keeps isDone : α → Prop)
    (h : ∀ a, keeps a → isDone a ∨ ∃ b, Relation.ReflTransGen R a b ∧ keeps b ∧ rank b < rank a)
    {a : α} (ha : keeps a) : ∃ b, Relation.ReflTransGen R a b ∧ keeps b ∧ isDone b := by
  induction hn : rank a using Nat.strongRecOn generalizing a with
  | _ n ih =>
    rcases h a ha with hdone | ⟨b, hab, hb, hlt⟩
    · exact ⟨a, .refl, ha, hdone⟩
    · obtain ⟨c, hbc, hc, hdone⟩ := ih _ (hn ▸ hlt) hb rfl
      exact ⟨c, hab.trans hbc, hc, hdone⟩

/-- What the far side makes of an opening and of a message. -/
structure FarSide where
  opening : Except ConnectError Unit
  reply : Except SendError String
  /-- Whether the link is open when the message has found its end. -/
  linkOpen : Bool

namespace Retry

/-- The event that a message under way waits for, if the far side answers so. -/
def awaits (a : FarSide) (r : Retry) : RetryEvent :=
  match r.stage with
  | .dialing => .dialed a.opening
  | .sending => .replied a.reply a.linkOpen
  | .resting _ _ => .rested

/-- What a message under way waits for can happen, once its pause is over. -/
theorem isSome_step_awaits (settings : RetrySettings) {now : Moment} (stopping : Bool) (l : Line)
    {r : Retry} (hdue : ∀ e deadline, r.stage = .resting e deadline → deadline ≤ now) (a : FarSide) :
    (r.step settings now stopping l (r.awaits a)).isSome := by
  cases hs : r.stage with
  | dialing => cases ho : a.opening <;> simp [awaits, step, hs, ho]
  | sending => cases hr : a.reply <;> simp [awaits, step, hs, hr]
  | resting e deadline => simp [awaits, step, hs, hdue e deadline hs]

/-- **A message under way can go on**, whatever the far side answers, at once or when its pause is
over. -/
theorem exists_step (settings : RetrySettings) (now : Moment) (stopping : Bool) (l : Line)
    (r : Retry) : ∃ now', now ≤ now' ∧ ∀ a, (r.step settings now' stopping l (r.awaits a)).isSome := by
  cases hs : r.stage with
  | dialing | sending =>
    exact ⟨now, Nat.le_refl _, isSome_step_awaits settings stopping l (by simp [hs])⟩
  | resting e deadline =>
    refine ⟨max now deadline, Nat.le_max_left .., isSome_step_awaits settings stopping l ?_⟩
    rintro e' deadline' hs'
    rw [hs] at hs'
    cases hs'
    exact Nat.le_max_right now deadline

end Retry

/-! ### Pauses -/

namespace RetrySettings

/-- The pauses after the first `n` failed attempts, in nanoseconds. -/
def pauses (s : RetrySettings) (n : Nat) : List Nat :=
  (List.range n).map fun attempt => (s.backoff attempt).toNanos

theorem pauses_succ (s : RetrySettings) (n : Nat) :
    s.pauses (n + 1) = s.pauses n ++ [(s.backoff n).toNanos] := by
  rw [pauses, List.range_succ, List.map_append]
  rfl

/-- **The first pauses together**, if none of them is cut. -/
theorem sum_pauses (s : RetrySettings) {n : Nat} (h : n ≤ 32)
    (hfits : ∀ attempt < n, s.baseBackoff.toNanos * 2 ^ attempt ≤ Duration.longest.toNanos) :
    (s.pauses n).sum = s.baseBackoff.toNanos * (2 ^ n - 1) := by
  induction n with
  | zero => rfl
  | succ n ih =>
    have hlast := s.toNanos_backoff (Nat.lt_of_succ_le h) (hfits n (Nat.lt_succ_self n))
    have hpos : 1 ≤ 2 ^ n := Nat.one_le_two_pow
    rw [pauses_succ, List.sum_append, List.sum_singleton, hlast,
      ih (Nat.le_of_succ_le h) fun attempt ha => hfits attempt (Nat.lt_succ_of_lt ha), ← Nat.mul_add]
    congr 1
    omega

end RetrySettings

end LoadRig
