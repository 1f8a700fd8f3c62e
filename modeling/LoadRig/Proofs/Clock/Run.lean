import LoadRig.Proofs.Clock.Turn
import LoadRig.Proofs.Phase.Interruption
/-!
# Runs on a virtual clock are runs

The clock and the service decide between them which moves of a phase happen and when. Whatever they
decide, the phase goes on by its own moves only, as long as nothing but a sign to stop comes from
outside. So whatever holds of every run holds of the runs on the clock: their phases keep the books,
and their reports are the accounts of what happened.

## Main definitions

* `LoadRig.Clock.Run.Onward` — the phase of a run has gone on by its own moves.

## Main results

* `LoadRig.Clock.Run.onward_turn`, `LoadRig.Clock.Run.onward_tick` — one turn of a sender, and one
  round of the clock.
* `LoadRig.Clock.Run.onward_finish` — a whole run of a phase.
-/

namespace LoadRig.Clock

open LoadRig.Random

namespace Run

variable {p : Patience} {r r' r'' : Run}

/-- Only the sign to stop is still to come from outside. -/
def OnlyStops (outside : List (Moment × Outside)) : Prop := ∀ o ∈ outside, o.2 = .stop

/-- The phase of a run has gone on by its own moves, and has let time go by only while nobody had
anything to do. A sign to stop was among them only if it came from outside, and nothing new is to
come from there. -/
structure Onward (p : Patience) (r r' : Run) : Prop where
  moves : ∃ ms, r.phase.steps p.retry ms = some r'.phase ∧
    r.phase.Throughout p.retry Phase.Prompt ms ∧ (PhaseMove.stop ∈ ms → r.outside ≠ [])
  outside : r'.outside ⊆ r.outside

theorem Onward.refl (p : Patience) (r : Run) : Onward p r r := ⟨⟨[], rfl, trivial, nofun⟩, fun _ => id⟩

theorem Onward.trans (h : Onward p r r') (h' : Onward p r' r'') : Onward p r r'' := by
  obtain ⟨ms, hms, hprompt, hstop⟩ := h.moves
  obtain ⟨ns, hns, hprompt', hstop'⟩ := h'.moves
  refine ⟨⟨ms ++ ns, Phase.steps_append hms hns, Phase.throughout_append hms hprompt hprompt',
    fun hmem => ?_⟩, List.Subset.trans h'.outside h.outside⟩
  rcases List.mem_append.mp hmem with hmem | hmem
  · exact hstop hmem
  · exact fun hnone => hstop' hmem (List.subset_nil.mp (hnone ▸ h.outside))

theorem Onward.of_step {m : PhaseMove} (h : r.phase.step p.retry m = some r'.phase)
    (hprompt : r.phase.Prompt m) (hm : m = .stop → r.outside ≠ [])
    (ho : r'.outside ⊆ r.outside) : Onward p r r' := by
  refine ⟨⟨[m], by rw [Phase.steps, h]; rfl, ⟨hprompt, fun _ _ => trivial⟩, fun hmem => ?_⟩, ho⟩
  exact hm (List.mem_singleton.mp hmem).symm

theorem onward_move (r : Run) (m : PhaseMove) (hprompt : r.phase.Prompt m) (hm : m ≠ .stop) :
    Onward p r (r.move p m) := by
  rw [move]
  split
  · next phase hstep => exact .of_step hstep hprompt (fun h => absurd h hm) fun _ => id
  · exact .refl p r

theorem onward_meet (p : Patience) (r : Run) (i : Nat) (e : SenderEvent) :
    Onward p r (r.meet p i e) := by
  simp only [meet]
  split
  · exact (onward_move r (.sender i e) trivial nofun).trans
      (onward_move _ (.sender i .closed) trivial nofun)
  · exact onward_move r (.sender i e) trivial nofun

/-- What the service remembers and what it was asked for is no part of the phase. -/
theorem Onward.of_eq (h : Onward p r' r'') (hphase : r'.phase = r.phase)
    (houtside : r'.outside = r.outside) : Onward p r r'' :=
  ⟨hphase ▸ houtside ▸ h.moves, houtside ▸ h.outside⟩

/-- **One turn of a sender** is made of moves of the phase. -/
theorem onward_turn {i : Nat} (h : r.turn p i = some r') : Onward p r r' := by
  cases hs : r.phase.senders[i]? with
  | none => simp [turn, hs] at h
  | some s =>
    have hturn := turns p hs
    rw [h] at hturn
    cases hturn with
    | answered q e service hq he => exact (onward_meet ..).of_eq rfl rfl
    | asked q service hq hs hdue => exact (Onward.refl p _).of_eq rfl rfl
    | met e ha he => exact onward_meet ..

/-- What every turn keeps is kept while a sender goes on. -/
theorem goOn_induction {P : Run → Prop} {i : Nat}
    (hturn : ∀ r r', P r → r.turn p i = some r' → P r') (fuel : Nat) (hr : P r) :
    P (r.goOn p i fuel) := by
  induction fuel generalizing r with
  | zero => exact hr
  | succ fuel ih =>
    rw [goOn]
    split
    · next r' ht => exact ih (hturn r r' hr ht)
    · exact hr

/-- What every turn keeps is kept by a round. -/
theorem round_induction {P : Run → Prop}
    (hturn : ∀ r r' i, P r → r.turn p i = some r' → P r') (fuel : Nat) (hr : P r) :
    P (r.round p fuel).2 := by
  refine List.foldlRecOn _ _ (motive := fun acc : Bool × Run => P acc.2) hr
    fun acc hacc i _ => ?_
  split
  · next r' ht => exact goOn_induction (fun r r' => hturn r r' i) fuel (hturn _ r' i hacc ht)
  · exact hacc

/-- What every round keeps is kept by a whole run. -/
theorem drive_induction {P : Run → Prop}
    (htick : ∀ fuel r r', P r → r.tick p fuel = some r' → P r') (fuel : Nat) (hr : P r) :
    P (r.drive p fuel) := by
  induction fuel generalizing r with
  | zero => exact hr
  | succ fuel ih =>
    rw [drive]
    split
    · exact hr
    · split
      · next r' ht => exact ih (htick fuel r r' hr ht)
      · exact hr

theorem onward_round (p : Patience) (fuel : Nat) (r : Run) : Onward p r (r.round p fuel).2 :=
  round_induction (P := Onward p r) (fun _ _ _ h ht => h.trans (onward_turn ht)) fuel (.refl p r)

theorem onward_letIn (p : Patience) {r : Run} (hr : OnlyStops r.outside) :
    Onward p r (r.letIn p).2 := by
  rw [letIn]
  split
  · next due o outside hcons =>
    split
    · have hstop : o = .stop := hr (due, o) (by simp [hcons])
      subst hstop
      have hless : outside ⊆ r.outside := by
        rw [hcons]
        exact List.subset_cons_self ..
      exact .of_step (m := .stop) rfl trivial (by simp [hcons]) hless
    · exact .refl p r
  · exact .refl p r

/-- **One round of the clock** is made of moves of the phase. -/
theorem onward_tick {fuel : Nat} (hr : OnlyStops r.outside) (h : r.tick p fuel = some r') :
    Onward p r r' := by
  have htick := ticks p fuel r
  rw [h] at htick
  cases htick with
  | letIn r' hlet =>
    have hletIn := onward_letIn p hr
    rwa [hlet] at hletIn
  | release hholding => exact onward_move r .release trivial nofun
  | produce phase hproduce => exact .of_step hproduce trivial nofun fun _ => id
  | round r' hround =>
    have hrounds := onward_round p fuel r
    rwa [hround] at hrounds
  | advance now hlet hmin hmay => exact onward_move r (.advance now) hmay nofun

theorem onward_drive (p : Patience) (fuel : Nat) {r : Run} (hr : OnlyStops r.outside) :
    Onward p r (r.drive p fuel) :=
  drive_induction (P := Onward p r)
    (fun _ _ _ h ht => h.trans (onward_tick (fun o ho => hr o (h.outside ho)) ht)) fuel (.refl p r)

/-- **A run on the clock is a run of its phase.** -/
theorem onward_finish (p : Patience) (hr : OnlyStops r.outside) : Onward p r (r.finish p) :=
  onward_drive p _ hr

end Run

end LoadRig.Clock
