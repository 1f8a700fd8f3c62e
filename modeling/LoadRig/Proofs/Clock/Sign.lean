import LoadRig.Proofs.Clock.Report
import LoadRig.Proofs.Run.Interruption
/-!
# The sign to stop on a virtual clock

The clock does not go beyond the moment of the sign without giving it. So a phase that ends later
than that has been told to stop, and no main phase follows a warmup phase that ends later. And the
clock is prompt: after the sign it lets no time go by while a sender makes a pause, so it begins no
attempt that the sender was not ready for when the sign was given.

## Main definitions

* `LoadRig.Clock.Run.Heard` — the sign has been given or is still to come.
* `LoadRig.Clock.Run.Meanwhile` — what happens at one moment.

## Main results

* `LoadRig.Clock.Run.heard_tick`, `LoadRig.Clock.Run.heard_drive`
* `LoadRig.Clock.main_eq_none_of_runAll` — no main phase after a sign during warmup.
* `LoadRig.Clock.interrupted_of_runPhase` — what becomes of a phase on the clock after the sign.
-/

namespace LoadRig.Clock

open LoadRig.Random

namespace Run

variable {p : Patience} {r r' r'' : Run} {i : Nat} {t : Moment}

/-- The sign has been given, or it is still to come at `t` and not overdue. -/
def Heard (t : Moment) (r : Run) : Prop :=
  r.phase.shared.stopping = true ∨ r.outside = [(t, .stop)] ∧ r.phase.shared.now ≤ t

/-- Nothing is let in from outside and no time goes by. -/
structure Meanwhile (r r' : Run) : Prop where
  outside_eq : r'.outside = r.outside
  now_eq : r'.phase.shared.now = r.phase.shared.now

namespace Meanwhile

theorem refl (r : Run) : Meanwhile r r := ⟨rfl, rfl⟩

theorem trans (h : Meanwhile r r') (h' : Meanwhile r' r'') : Meanwhile r r'' :=
  ⟨h'.outside_eq.trans h.outside_eq, h'.now_eq.trans h.now_eq⟩

theorem of_eq (h : Meanwhile r' r'') (hphase : r'.phase = r.phase)
    (houtside : r'.outside = r.outside) : Meanwhile r r'' :=
  ⟨houtside ▸ h.outside_eq, hphase ▸ h.now_eq⟩

theorem of_step {m : PhaseMove} (h : r.phase.step p.retry m = some r'.phase)
    (hm : ∀ now, m ≠ .advance now) (ho : r'.outside = r.outside) : Meanwhile r r' := by
  refine ⟨ho, ?_⟩
  generalize r'.phase = q at h
  cases Phase.does_of_step h with
  | produce _ _ | release _ | stop => rfl
  | sender i e s y hi hy =>
    obtain ⟨_, he⟩ := Sender.entered_step hy
    exact he.now_eq
  | advance now => exact absurd rfl (hm now)

end Meanwhile

theorem meanwhile_move (r : Run) (m : PhaseMove) (hm : ∀ now, m ≠ .advance now) :
    Meanwhile r (r.move p m) := by
  rw [move]
  split
  · next phase hstep => exact .of_step hstep hm rfl
  · exact .refl r

theorem meanwhile_meet (p : Patience) (r : Run) (i : Nat) (e : SenderEvent) :
    Meanwhile r (r.meet p i e) := by
  simp only [meet]
  split
  · exact (meanwhile_move r (.sender i e) (by simp)).trans
      (meanwhile_move _ (.sender i .closed) (by simp))
  · exact meanwhile_move r (.sender i e) (by simp)

theorem meanwhile_turn (h : r.turn p i = some r') : Meanwhile r r' := by
  cases hs : r.phase.senders[i]? with
  | none => simp [turn, hs] at h
  | some s =>
    have hturn := turns p hs
    rw [h] at hturn
    cases hturn with
    | answered q e service hq he => exact (meanwhile_meet ..).of_eq rfl rfl
    | asked q service hq hs hdue => exact (Meanwhile.refl _).of_eq rfl rfl
    | met e ha he => exact meanwhile_meet ..

theorem meanwhile_round (p : Patience) (fuel : Nat) (r : Run) : Meanwhile r (r.round p fuel).2 :=
  round_induction (P := Meanwhile r) (fun _ _ _ h ht => h.trans (meanwhile_turn ht)) fuel (.refl r)

/-- **The clock gives the sign before it goes on.** -/
theorem heard_tick {fuel : Nat} (ho : OnlyStops r.outside) (hr : r.Heard t)
    (h : r.tick p fuel = some r') : r'.Heard t := by
  rcases hr with hstop | ⟨hout, hle⟩
  · obtain ⟨ms, hms, -⟩ := (onward_tick ho h).moves
    exact .inl (Phase.stopping_of_mem hms (.inl hstop))
  have hmeanwhile : Meanwhile r r' → r'.Heard t := fun hm =>
    .inr ⟨hm.outside_eq.trans hout, hm.now_eq ▸ hle⟩
  have htick := ticks p fuel r
  rw [h] at htick
  cases htick with
  | letIn r' hlet =>
    simp only [letIn, hout] at hlet
    split at hlet
    · exact .inl (by rw [← (Prod.mk.inj hlet).2]; rfl)
    · cases hlet
  | release hholding => exact hmeanwhile (meanwhile_move r .release (by simp))
  | produce phase hproduce => exact hmeanwhile (.of_step hproduce (by simp) rfl)
  | round r' hround =>
    have hrounds := meanwhile_round p fuel r
    rw [hround] at hrounds
    exact hmeanwhile hrounds
  | advance now hlet hmin hmay =>
    -- the sign is not due yet, and the clock goes to what is due first
    have hlt : r.phase.shared.now < t := by
      by_contra hnot
      simp [letIn, hout, Nat.not_lt.mp hnot] at hlet
    have hdue : t ∈ r.dues := mem_dues.mpr (.inr (.inr ⟨(t, .stop), by simp [hout], rfl⟩))
    have hnow : now ≤ t := by
      refine (List.min?_eq_some_iff.mp hmin).2 t (List.mem_filter.mpr ⟨hdue, by simpa using hlt⟩)
    rw [move]
    split
    · next phase hstep =>
      cases Phase.does_of_step hstep with
      | advance _ _ => exact .inr ⟨hout, hnow⟩
    · exact .inr ⟨hout, hle⟩

theorem heard_drive (fuel : Nat) (ho : OnlyStops r.outside) (hr : r.Heard t) :
    (r.drive p fuel).Heard t := by
  refine (drive_induction (P := fun r => OnlyStops r.outside ∧ r.Heard t) ?_ fuel ⟨ho, hr⟩).2
  rintro fuel r r' ⟨ho, hr⟩ ht
  exact ⟨fun o hmem => ho o ((onward_tick ho ht).outside hmem), heard_tick ho hr ht⟩

end Run

/-- A phase on the clock that ends later than the moment of the sign has been told to stop. -/
theorem stopping_or_le_of_runPhase (c : Config) (plan : PhasePlan) (course : Course) {t : Moment}
    (ho : course.outside = [(t, .stop)]) (hle : course.shared.now ≤ t) :
    (runPhase c plan course).2.shared.stopping = true ∨
      (runPhase c plan course).2.shared.now ≤ t := by
  let generator := SeededGenerator.ofLoad c.load plan.kind.salt
  let run := Run.begin course.shared c.load plan generator course.service course.outside
  have honly : Run.OnlyStops run.outside := by
    show Run.OnlyStops course.outside
    simp [ho, Run.OnlyStops]
  have hheard : run.Heard t := .inr ⟨ho, hle⟩
  exact (Run.heard_drive (p := .ofConfig c) (run.rounds (.ofConfig c)) honly hheard).imp_right
    And.right

/-- **No main phase follows a warmup phase that ends later than the moment of the sign.** -/
theorem main_eq_none_of_runAll (c : Config) (service : Service) (epoch : Int) {t : Moment}
    (h : t < (runPhase c (RunPlan.ofConfig c).warmup
      (.start service epoch (some t))).2.shared.now) :
    (runAll c (.start service epoch (some t))).1.main = none := by
  have hstop := (stopping_or_le_of_runPhase c (RunPlan.ofConfig c).warmup
    (.start service epoch (some t)) rfl (Nat.zero_le t)).resolve_right (Nat.not_le.mpr h)
  simp only [runAll]
  cases (RunPlan.ofConfig c).main with
  | none => rfl
  | some plan =>
    simp only [hstop, if_true]
    rfl

/-- **What becomes of a phase on the clock after the sign**: the phase comes to its end by the rules,
and the driver is timely. -/
theorem interrupted_of_runPhase (c : Config) (plan : PhasePlan) {course : Course}
    (hc : Run.OnlyStops course.outside) :
    ∃ r : PhaseRun ChaCha (.ofConfig c) c.load plan course.shared,
      r.report = (runPhase c plan course).1 ∧
      ∀ ms ns q, r.moves = ms ++ ns →
        (Phase.ofPlan course.shared c.load plan r.generator).steps (.ofConfig c) ms = some q →
        q.shared.stopping = true →
        q.Interrupted (.ofConfig c) ns r.last ∧ q.Throughout (.ofConfig c) Phase.Timely ns := by
  obtain ⟨r, hreport, -, hprompt, -⟩ := phaseRun_of_runPhase c plan rfl hc
  refine ⟨r, hreport, fun ms ns q hmoves hq hstop => ?_⟩
  have htold : q.Told (.ofConfig c) := ⟨Phase.steady_steps hq (Phase.steady_start ..), hstop⟩
  have hsteps := r.steps_eq
  rw [hmoves] at hsteps hprompt
  exact ⟨htold.interrupted (Phase.steps_of_append hsteps hq),
    htold.timely_of_prompt (Phase.throughout_of_append hq hprompt)⟩

end LoadRig.Clock
