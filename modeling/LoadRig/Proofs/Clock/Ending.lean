import LoadRig.Proofs.Clock.Effort
import Mathlib.Data.List.Induction
/-!
# Every run on a virtual clock comes to its end

A round of the clock does something while anybody is left. If nobody has anything to do at this
moment, everybody who is not done waits: at the queue, for an answer that is due later, or for the end
of a pause. They cannot all wait at the queue, so something is due later, and the clock goes there.
And every turn and every round leaves less to do, so a sender goes on until it has nothing to do, and
enough rounds bring a run to its end.

## Main definitions

* `LoadRig.Clock.Run.Rounded` — what is known after some turns.

## Main results

* `LoadRig.Clock.Run.Orderly.rests_of_turn` — a sender that gets no turn has nothing to do.
* `LoadRig.Clock.Run.Orderly.turn_goOn` — a sender that goes on stops when it has nothing to do.
* `LoadRig.Clock.Run.Orderly.lowers_tick` — every round of the clock leaves less to do.
* `LoadRig.Clock.Run.Orderly.isDone_of_tick` — the clock only stands still when everybody has ended.
* `LoadRig.Clock.Run.Orderly.isDone_drive` — enough rounds bring a run to its end.
-/

namespace LoadRig.Clock.Run

open LoadRig.Random

variable {p : Patience} {r r' : Run} {i : Nat} {s : Sender}

/-! ### Rounds -/

/-- **A sender that gets no turn has nothing to do at this moment.** -/
theorem Orderly.rests_of_turn (h : r.Orderly p) (hs : r.phase.senders[i]? = some s)
    (ht : r.turn p i = none) : r.Rests i s := by
  obtain ⟨q, hq, hsuits⟩ := h.exists_pending hs
  have hturn := turns p hs
  rw [ht] at hturn
  cases hturn with
  | still hrests => exact hrests q hq hsuits

/-- A sender that goes on leaves still less to do. -/
theorem Lowers.goOn (h : Lowers p r r') (i fuel : Nat) : Lowers p r (r'.goOn p i fuel) :=
  goOn_induction (P := Lowers p r) (fun _ _ h ht => h.trans (h.orderly.lowers_turn ht)) fuel h

/-- **A sender goes on until it has nothing to do at this moment**, if it may take as many turns as there
is left to do in the run. -/
theorem Orderly.turn_goOn {fuel : Nat} (h : r.Orderly p) (hfuel : r.effort p ≤ fuel) :
    (r.goOn p i fuel).turn p i = none := by
  induction fuel generalizing r with
  | zero =>
    rw [Run.goOn]
    cases ht : r.turn p i with
    | none => rfl
    | some r' =>
      have hless := (h.lowers_turn ht).less
      omega
  | succ fuel ih =>
    rw [Run.goOn]
    split
    · next r' ht =>
      have hlowers := h.lowers_turn ht
      have hless := hlowers.less
      exact ih hlowers.orderly (by omega)
    · next ht => exact ht

/-- What is known after some turns: either nothing was done, and nobody has anything to do, or the
run has gone on. -/
inductive Rounded (p : Patience) (r : Run) (places : List Nat) : Bool × Run → Prop
  | idle (h : ∀ i ∈ places, r.turn p i = none) : Rounded p r places (false, r)
  | done (r' : Run) (h : Lowers p r r') : Rounded p r places (true, r')

/-- **A turn for every sender** does something, or nobody has anything to do. -/
theorem Orderly.rounded_round (h : r.Orderly p) (fuel : Nat) :
    Rounded p r (List.range r.phase.senders.length) (r.round p fuel) := by
  rw [round]
  induction List.range r.phase.senders.length using List.reverseRecOn with
  | nil => exact .idle nofun
  | append_singleton places i ih =>
    rw [List.foldl_append, List.foldl_cons, List.foldl_nil]
    generalize List.foldl _ (false, r) places = acc at ih ⊢
    cases ih with
    | idle hnone =>
      cases hturn : r.turn p i with
      | some r' => exact .done _ ((h.lowers_turn hturn).goOn i fuel)
      | none =>
        refine .idle fun j hj => ?_
        rcases List.mem_append.mp hj with hj | hj
        · exact hnone j hj
        · rw [List.mem_singleton.mp hj]
          exact hturn
    | done r' hless =>
      cases hturn : r'.turn p i with
      | some r'' =>
        exact .done _ ((hless.trans (hless.orderly.lowers_turn hturn)).goOn i fuel)
      | none => exact .done r' hless

/-- Nobody gets a turn in a round that does nothing. -/
theorem Orderly.turn_eq_none {fuel : Nat} (h : r.Orderly p) (hround : (r.round p fuel).1 = false)
    (hi : i ∈ List.range r.phase.senders.length) : r.turn p i = none := by
  have hrounded := h.rounded_round fuel
  generalize r.round p fuel = x at hrounded hround
  cases hrounded with
  | idle hnone => exact hnone i hi
  | done r' hless => cases hround

/-- **Every round of the clock leaves less to do.** -/
theorem Orderly.lowers_tick {fuel : Nat} (h : r.Orderly p) (ht : r.tick p fuel = some r') :
    Lowers p r r' := by
  have htick := ticks p fuel r
  rw [ht] at htick
  cases htick with
  | letIn r' hlet => exact h.lowers_letIn hlet
  | release hholding => exact h.lowers_release hholding
  | produce phase hproduce => exact h.lowers_produce hproduce
  | round r' hround =>
    have hrounded := h.rounded_round fuel
    rw [hround] at hrounded
    cases hrounded with
    | done _ hless => exact hless
  | advance now hlet hmin hmay =>
    obtain ⟨hmem, hlt⟩ := List.mem_filter.mp (List.min?_mem hmin)
    exact h.lowers_advance hmem (by simpa using hlt)

/-! ### The end -/

theorem restful_of {sh : Shared} {now : Moment}
    (hw : s.stage = .waiting → Sender.hasReason sh = false)
    (hd : ∀ deadline, s.deadline? = some deadline → sh.stopping = false ∧ now ≤ deadline) :
    Phase.restful sh now s = true := by
  rw [Phase.restful]
  split
  · next hs => simp [hw hs]
  · next t hs =>
    split
    · next e deadline ht =>
      obtain ⟨hstop, hle⟩ := hd deadline (by simp [Sender.deadline?, hs, ht])
      simp [hstop, hle]
    · rfl
  · rfl

/-- A sender that has nothing to do at this moment has nothing to do until the next moment at which
something is due. -/
theorem Rests.restful {now : Moment} (h : r.Rests i s) (hs : s ∈ r.phase.senders)
    (hnext : ∀ due ∈ r.dues, r.phase.shared.now < due → now ≤ due) :
    Phase.restful r.phase.shared now s = true := by
  cases h with
  | done hd =>
    refine restful_of (fun hstage => ?_) fun deadline hdeadline => ?_
    · simp [Sender.isDone, hstage] at hd
    · rw [Sender.deadline?] at hdeadline
      split at hdeadline
      · next t hstage => simp [Sender.isDone, hstage] at hd
      · cases hdeadline
  | starved hstage hnone =>
    exact restful_of (fun _ => hnone) fun deadline hdeadline => by
      simp [Sender.deadline?, hstage] at hdeadline
  | asked q due hq ha hdue hlt =>
    refine restful_of (fun hstage => ?_) fun deadline hdeadline => ?_
    · simp [Sender.asks, hstage] at ha
    · simp [Sender.asks_of_deadline hdeadline] at ha
  | resting deadline hdeadline hstop hlt =>
    refine restful_of (fun hstage => ?_) fun deadline' hdeadline' => ?_
    · simp [Sender.deadline?, hstage] at hdeadline
    · obtain rfl := Option.some.inj (hdeadline.symm.trans hdeadline')
      exact ⟨hstop, hnext deadline (mem_dues.mpr (.inr (.inl ⟨s, hs, hdeadline⟩))) hlt⟩

/-- A sender that is neither done nor waiting at the queue waits for something that is due later. -/
theorem Rests.exists_due (h : r.Rests i s) (hs : s ∈ r.phase.senders) (hd : s.isDone = false)
    (hw : ¬ (s.stage = .waiting ∧ Sender.hasReason r.phase.shared = false)) :
    ∃ due ∈ r.dues, r.phase.shared.now < due := by
  cases h with
  | done hdone => simp [hd] at hdone
  | starved hstage hnone => exact absurd ⟨hstage, hnone⟩ hw
  | asked q due hq ha hdue hlt =>
    exact ⟨due, mem_dues.mpr (.inl ⟨q, List.mem_of_getElem? hq, hdue⟩), hlt⟩
  | resting deadline hdeadline hstop hlt =>
    exact ⟨deadline, mem_dues.mpr (.inr (.inl ⟨s, hs, hdeadline⟩)), hlt⟩

/-- While anybody is left and nobody has anything to do at this moment, something is due later. -/
theorem Orderly.exists_due (h : r.Orderly p) (hd : r.phase.isDone = false)
    (hholding : r.phase.holding = false) (hproduce : r.phase.step p.retry .produce = none)
    (hrests : ∀ s ∈ r.phase.senders, ∃ i, r.Rests i s) :
    ∃ due ∈ r.dues, r.phase.shared.now < due := by
  by_contra hno
  have hstarved : ∀ s ∈ r.phase.senders, s.isDone = false →
      s.stage = .waiting ∧ Sender.hasReason r.phase.shared = false := by
    intro s hs hsd
    by_contra hw
    obtain ⟨i, hrest⟩ := hrests s hs
    exact hno (hrest.exists_due hs hsd hw)
  by_cases hall : ∀ s ∈ r.phase.senders, s.isDone = true
  · have hf : r.phase.producer.finished = false := by
      have hsenders : r.phase.senders.all (·.isDone) = true := List.all_eq_true.mpr hall
      simpa [Phase.isDone, hsenders] using hd
    obtain ⟨phase, hphase, -⟩ := h.steady.released hholding hall hf
    rw [hproduce] at hphase
    cases hphase
  · obtain ⟨s, hs, hsd⟩ : ∃ s ∈ r.phase.senders, s.isDone = false := by simpa using hall
    obtain ⟨hf, hroom⟩ := h.steady.produce_of_starved (hstarved s hs hsd).2
    obtain ⟨phase, hphase⟩ := Phase.exists_produce p.retry hf (.inr hroom)
    rw [hproduce] at hphase
    cases hphase

/-- Nobody has anything to do until the next moment at which something is due. -/
theorem mayAdvance_of {now : Moment} (hholding : r.phase.holding = false)
    (hproduce : r.phase.step p.retry .produce = none)
    (hrests : ∀ s ∈ r.phase.senders, ∃ i, r.Rests i s)
    (hmin : (r.dues.filter (r.phase.shared.now < ·)).min? = some now) :
    r.phase.mayAdvance now = true := by
  obtain ⟨hmem, hleast⟩ := List.min?_eq_some_iff.mp hmin
  have hlt : r.phase.shared.now < now := by simpa using (List.mem_filter.mp hmem).2
  have hnext : ∀ due ∈ r.dues, r.phase.shared.now < due → now ≤ due := fun due hdue hlater =>
    hleast due (List.mem_filter.mpr ⟨hdue, by simpa using hlater⟩)
  have hproducer : r.phase.producer.step r.phase.shared.instant r.phase.shared.queue = none :=
    Option.map_eq_none_iff.mp hproduce
  have hsenders : r.phase.senders.all (Phase.restful r.phase.shared now) = true :=
    List.all_eq_true.mpr fun s hs => (hrests s hs).elim fun i hrest => hrest.restful hs hnext
  simp [Phase.mayAdvance, hlt, hholding, hproducer, hsenders]

/-- **The clock only stands still when everybody has ended.** -/
theorem Orderly.isDone_of_tick {fuel : Nat} (h : r.Orderly p) (ht : r.tick p fuel = none) :
    r.phase.isDone = true := by
  by_contra hnot
  have hd : r.phase.isDone = false := by simpa using hnot
  have htick := ticks p fuel r
  rw [ht] at htick
  cases htick with
  | still hholding hproduce hround hnext =>
    have hrests : ∀ s ∈ r.phase.senders, ∃ i, r.Rests i s := by
      intro s hs
      obtain ⟨i, hi⟩ := List.mem_iff_getElem?.mp hs
      have hlt := (List.getElem?_eq_some_iff.mp hi).1
      exact ⟨i, h.rests_of_turn hi (h.turn_eq_none hround (List.mem_range.mpr hlt))⟩
    obtain ⟨due, hdue, hlater⟩ := h.exists_due hd hholding hproduce hrests
    have hmem : due ∈ r.dues.filter (r.phase.shared.now < ·) :=
      List.mem_filter.mpr ⟨hdue, by simpa using hlater⟩
    cases hmin : (r.dues.filter (r.phase.shared.now < ·)).min? with
    | none => simp [List.min?_eq_none_iff.mp hmin] at hmem
    | some now =>
      have hmay := mayAdvance_of hholding hproduce hrests hmin
      simp [hnext now hmin] at hmay

/-- **Enough rounds bring a run to its end.** -/
theorem Orderly.isDone_drive {fuel : Nat} (h : r.Orderly p) (hfuel : r.effort p ≤ fuel) :
    (r.drive p fuel).phase.isDone = true := by
  induction fuel generalizing r with
  | zero =>
    rw [drive]
    cases ht : r.tick p 0 with
    | none => exact h.isDone_of_tick ht
    | some r' =>
      have hless := (h.lowers_tick ht).less
      omega
  | succ fuel ih =>
    rw [drive]
    split
    · next hd => exact hd
    · split
      · next r' ht =>
        have hlowers := h.lowers_tick ht
        have hless := hlowers.less
        exact ih hlowers.orderly (by omega)
      · next ht => exact h.isDone_of_tick ht

end LoadRig.Clock.Run
