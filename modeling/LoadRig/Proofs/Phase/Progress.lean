import LoadRig.Proofs.Phase.Tallies
import LoadRig.Proofs.Sender.Effort
/-!
# No phase gets stuck

The producer of a phase waits for room in the queue, and its senders wait for messages. They cannot
all wait for each other. A sender at an empty queue waits only while the producer may still put
something in, and then there is room, since a queue has room for one message at least. A producer at
a full queue waits only while somebody holds an end of the queue, and that is the phase itself, which
can let go at any time, or a sender that is not done and finds something when it looks.

So while a phase is not done, somebody can go on, whatever the far side answers: an opening, a
message, a pause and the closing of a connection come to an end, and for a pause some time may have
to go by. And nobody goes on for ever. `Phase.rank` is a number that every move lowers unless it
changes nothing but the clock: a look that runs out, the loss of a link that is not open, a sign to
stop that was given before, and the passing of time.

## Main definitions

* `LoadRig.Phase.rank` — what is left to do in a phase at most.
* `LoadRig.Phase.Idle` — a move that changes nothing but the clock.
* `LoadRig.Phase.GoesOn` — a move by which a phase goes on by itself.
* `LoadRig.Phase.Steady` — the invariant that progress rests on.

## Main results

* `LoadRig.Phase.eq_later_of_idle`, `LoadRig.Phase.rank_step` — every move changes nothing but the
  clock, or lowers the rank.
* `LoadRig.Phase.Steady.exists_move` — while a phase is not done, somebody can go on.
* `LoadRig.Phase.unstuck_of_steps` — both, for every run.
* `LoadRig.Phase.Steady.exists_isDone` — every run can be brought to its end.
-/

namespace LoadRig

open LoadRig.Random

namespace Phase

variable {σ : Type} {settings : RetrySettings} {p p' : Phase σ} {m : PhaseMove}

/-! ### Moves -/

/-- The phase when it is `now`. -/
def later (p : Phase σ) (now : Moment) : Phase σ := { p with shared := { p.shared with now } }

/-- A move that changes nothing but the clock: a look that runs out, the loss of a link that is not
open, a sign to stop that was given before, and the passing of time. -/
def Idle (p : Phase σ) : PhaseMove → Prop
  | .produce | .release => False
  | .sender i e => ∃ s, p.senders[i]? = some s ∧ s.Idles p.shared e
  | .stop => p.shared.stopping = true
  | .advance _ => True

/-- A move by which a phase goes on by itself, where `answers` is what the far side answers to each
sender. Nobody is brought down, no link is lost and nobody is told to stop. -/
def GoesOn (answers : Nat → FarSide) (p : Phase σ) : PhaseMove → Prop
  | .produce | .release => True
  | .sender i e => ∃ s, p.senders[i]? = some s ∧ s.awaits (answers i) = some e
  | .stop | .advance _ => False

/-! ### The invariant -/

/-- The books of a phase are in order, its queue has room for a message at least, and its senders
keep to the allowed attempts. -/
structure Steady (settings : RetrySettings) (p : Phase σ) : Prop where
  books : p.Books
  capacity_pos : 0 < p.shared.queue.capacity
  within : ∀ s ∈ p.senders, s.Within settings

theorem steady_start (settings : RetrySettings) (shared : Shared) (capacity : Nat)
    (generator : MessageGenerator σ) (requested : Nat) (assignments : List (Nat × Nat)) :
    (start shared capacity (.start generator requested) assignments).Steady settings where
  books := books_start ..
  capacity_pos := Nat.lt_of_lt_of_le Nat.zero_lt_one (Nat.le_max_right capacity 1)
  within := by
    intro s hs
    obtain ⟨id, quota, room, rfl⟩ := eq_start_of_mem hs
    exact Sender.within_start id quota room

/-- A look finds nothing to do only while the producer is there and has room. -/
theorem Steady.produce_of_starved (hp : p.Steady settings)
    (h : Sender.hasReason p.shared = false) :
    p.producer.finished = false ∧ p.shared.queue.size < p.shared.queue.capacity := by
  simp only [Sender.hasReason, Bool.or_eq_false_iff, Bool.not_eq_false'] at h
  obtain ⟨⟨-, hempty⟩, hprod⟩ := h
  have hsize : p.shared.queue.size = 0 := by simpa [Queue.isEmpty] using hempty
  have hpos := hp.capacity_pos
  refine ⟨?_, by omega⟩
  have hflag := hp.books.supply.flag
  rw [hprod] at hflag
  simpa using hflag.symm

/-- Once the last sender is done and the phase has let go, nobody is left to take a message. -/
theorem Steady.consumers_eq_zero (hp : p.Steady settings) (hh : p.holding = false)
    (hd : ∀ s ∈ p.senders, s.isDone = true) : p.shared.queue.consumers = 0 := by
  have hholds : total holds p.senders = 0 := by
    rw [total_eq_mul (n := 0) fun s hs => by simp [holds, hd s hs], Nat.mul_zero]
  rw [hp.books.consumers, hholds, hh]
  rfl

section Runs

variable [WordSource σ]

/-! ### What is left to do -/

/-- What is left to do in a phase at most: for the producer, for each sender, for the phase itself,
and for whoever may tell it to stop. -/
def rank (settings : RetrySettings) (p : Phase σ) : Nat :=
  p.producer.effort + total (Sender.weight settings.maxAttempts) p.senders + p.holding.toNat +
    (!p.shared.stopping).toNat

theorem steady_step (h : p.step settings m = some p') (hp : p.Steady settings) :
    p'.Steady settings where
  books := books_step h hp.books
  capacity_pos := by
    have hpos := hp.capacity_pos
    cases does_of_step h with
    | produce y hy =>
      show 0 < y.2.capacity
      rw [Producer.capacity_step hy]
      exact hpos
    | sender i e s y hi hy =>
      show 0 < y.1.queue.capacity
      rw [Sender.capacity_step hy]
      exact hpos
    | release | stop | advance => exact hpos
  within := by
    cases does_of_step h with
    | produce | release | stop | advance => exact hp.within
    | sender i e s y hi hy =>
      intro s' hs'
      rcases List.mem_or_eq_of_mem_set hs' with hs' | rfl
      · exact hp.within s' hs'
      · exact Sender.within_step hy (hp.within s (List.mem_of_getElem? hi))

theorem steady_steps {ms : List PhaseMove} (h : p.steps settings ms = some p')
    (hp : p.Steady settings) : p'.Steady settings :=
  steps_induction (fun _ _ _ => steady_step) h hp

/-- A move that is idle changes nothing but the clock. -/
theorem eq_later_of_idle (h : p.step settings m = some p') (hi : p.Idle m) :
    p' = p.later p'.shared.now := by
  cases does_of_step h with
  | produce | release => exact hi.elim
  | stop =>
    have hstop : p.shared.stopping = true := hi
    simp only [later, ← hstop]
  | advance now hn => rfl
  | sender i e s y hs hy =>
    obtain ⟨s', hs', hidle⟩ := hi
    obtain rfl : s = s' := Option.some.inj (hs.symm.trans hs')
    rw [Sender.eq_of_idles hy hidle]
    obtain ⟨hlt, rfl⟩ := List.getElem?_eq_some_iff.mp hs
    simp only [List.set_getElem_self]
    rfl

/-- **Every other move brings the phase closer to its end.** -/
theorem rank_step (h : p.step settings m = some p') (hp : p.Steady settings) (hi : ¬ p.Idle m) :
    p'.rank settings < p.rank settings := by
  cases does_of_step h with
  | produce y hy =>
    have hlt := Producer.effort_step hy hp.books.supply
    simp only [rank]
    omega
  | release hh =>
    simp only [rank, hh, Bool.toNat_true, Bool.toNat_false]
    omega
  | stop =>
    have hstop : p.shared.stopping = false := by simpa [Idle] using hi
    simp only [rank, hstop, Bool.not_true, Bool.not_false, Bool.toNat_true, Bool.toNat_false]
    omega
  | advance now hn => exact absurd trivial hi
  | sender i e s y hs hy =>
    have hmem := List.mem_of_getElem? hs
    have hlt := Sender.weight_step hy (hp.books.sound s hmem) (hp.within s hmem)
      fun hidle => hi ⟨s, hs, hidle⟩
    have htotal : total (Sender.weight settings.maxAttempts) (p.senders.set i y.2)
          + s.weight settings.maxAttempts
        = total (Sender.weight settings.maxAttempts) p.senders + y.2.weight settings.maxAttempts :=
      total_set hs (Nat.add_comm ..)
    obtain ⟨ended, he⟩ := Sender.entered_step hy
    have hstop : y.1.stopping = p.shared.stopping := he.stopping_eq
    simp only [rank, hstop]
    omega

/-! ### Somebody can go on -/

/-- The producer can take its turn while there is room or nobody is left. -/
theorem exists_produce (settings : RetrySettings) (hf : p.producer.finished = false)
    (hq : p.shared.queue.consumers = 0 ∨ p.shared.queue.size < p.shared.queue.capacity) :
    ∃ p', p.step settings .produce = some p' := by
  obtain ⟨y, hy⟩ := Producer.exists_step p.shared.instant hf hq
  exact ⟨_, congrArg (Option.map _) hy⟩

/-- **A producer at a full queue is released by the last sender that is done**: at its next turn it
ends, and with it the phase. -/
theorem Steady.released (hp : p.Steady settings) (hh : p.holding = false)
    (hd : ∀ s ∈ p.senders, s.isDone = true) (hf : p.producer.finished = false) :
    ∃ p', p.step settings .produce = some p' ∧ p'.isDone = true := by
  have hzero := hp.consumers_eq_zero hh hd
  obtain ⟨p', hp'⟩ := exists_produce settings hf (.inl hzero)
  refine ⟨p', hp', ?_⟩
  cases does_of_step hp' with
  | produce y hy =>
    have hfin := Producer.finished_step hy hzero
    simp only [isDone, hfin, Bool.true_and]
    exact List.all_eq_true.mpr hd

theorem step_sender {i : Nat} {e : SenderEvent} {s : Sender} {y : Shared × Sender}
    (hi : p.senders[i]? = some s) (hy : s.step settings p.shared e = some y) :
    p.step settings (.sender i e)
      = some { p with shared := y.1, senders := p.senders.set i y.2 } := by
  simp only [step, hi, hy, Option.map_some]

/-- **While a phase is not done, somebody can go on**, at once or when some time has gone by, whatever
the far side answers. -/
theorem Steady.exists_move (hp : p.Steady settings) (hd : p.isDone = false) :
    ∃ q, (q = p ∨ ∃ now, p.step settings (.advance now) = some q) ∧
      ∀ answers : Nat → FarSide, ∃ m p', q.GoesOn answers m ∧ ¬ q.Idle m ∧
        q.step settings m = some p' := by
  by_cases hh : p.holding = true
  · exact ⟨p, .inl rfl, fun _ => ⟨.release, _, trivial, id, if_pos hh⟩⟩
  have hh : p.holding = false := by simpa using hh
  by_cases hall : ∀ s ∈ p.senders, s.isDone = true
  · have hf : p.producer.finished = false := by
      have hsenders : p.senders.all (·.isDone) = true := List.all_eq_true.mpr hall
      simpa [isDone, hsenders] using hd
    obtain ⟨p', hp', -⟩ := hp.released hh hall hf
    exact ⟨p, .inl rfl, fun _ => ⟨.produce, p', trivial, id, hp'⟩⟩
  · obtain ⟨s, hs, hnot⟩ : ∃ s ∈ p.senders, s.isDone = false := by
      by_contra hno
      refine hall fun s hs => ?_
      by_contra hdone
      exact hno ⟨s, hs, by simpa using hdone⟩
    by_cases hidle : s.stage = .waiting ∧ Sender.hasReason p.shared = false
    · -- the sender waits for the producer, which has room
      obtain ⟨hf, hroom⟩ := hp.produce_of_starved hidle.2
      obtain ⟨p', hp'⟩ := exists_produce settings hf (.inr hroom)
      exact ⟨p, .inl rfl, fun _ => ⟨.produce, p', trivial, id, hp'⟩⟩
    · obtain ⟨i, hi⟩ := List.mem_iff_getElem?.mp hs
      have hreason : s.stage = .waiting → Sender.hasReason p.shared = true := by
        intro hst
        by_contra hno
        exact hidle ⟨hst, by simpa using hno⟩
      obtain ⟨now, hle, hgo⟩ := Sender.exists_step settings hnot hreason
      refine ⟨p.later now, ?_, fun answers => ?_⟩
      · rcases Nat.eq_or_lt_of_le hle with rfl | hlt
        · exact .inl rfl
        · exact .inr ⟨now, if_pos hlt⟩
      · obtain ⟨e, he, hni, hy⟩ := hgo (answers i)
        obtain ⟨y, hy⟩ := Option.isSome_iff_exists.mp hy
        refine ⟨.sender i e, _, ⟨s, hi, he⟩, ?_, step_sender (p := p.later now) hi hy⟩
        rintro ⟨s', hs', hi'⟩
        obtain rfl : s = s' := Option.some.inj (hi.symm.trans hs')
        exact hni hi'

/-! ### Whole runs -/

/-- Time costs nothing. -/
theorem rank_advance {now : Moment} (h : p.step settings (.advance now) = some p') :
    p'.rank settings = p.rank settings := by
  rw [eq_later_of_idle h trivial]
  rfl

/-- A phase goes on by itself, where the far side answers by what it has seen so far; or it waits. -/
def GoesBy (settings : RetrySettings) (answers : Phase σ → Nat → FarSide) (p p' : Phase σ) : Prop :=
  (∃ now, p.step settings (.advance now) = some p') ∨
    ∃ m, p.GoesOn (answers p) m ∧ p.step settings m = some p'

/-- Some move leads from one state of a phase to another. -/
def Leads (settings : RetrySettings) (p p' : Phase σ) : Prop := ∃ m, p.step settings m = some p'

theorem GoesBy.leads {answers : Phase σ → Nat → FarSide} (h : GoesBy settings answers p p') :
    Leads settings p p' :=
  h.elim (fun ⟨now, hstep⟩ => ⟨.advance now, hstep⟩) fun ⟨m, _, hstep⟩ => ⟨m, hstep⟩

theorem exists_steps_of_leads (h : Relation.ReflTransGen (Leads settings) p p') :
    ∃ ms, p.steps settings ms = some p' := by
  induction h using Relation.ReflTransGen.head_induction_on with
  | refl => exact ⟨[], rfl⟩
  | head hmove _ ih =>
    obtain ⟨m, hm⟩ := hmove
    obtain ⟨ms, hms⟩ := ih
    exact ⟨m :: ms, Option.bind_eq_some_iff.mpr ⟨_, hm, hms⟩⟩

/-- **Every run can be brought to its end**, by the moves of the phase alone and whatever the far side
answers. -/
theorem Steady.exists_isDone (hp : p.Steady settings) (answers : Phase σ → Nat → FarSide) :
    ∃ q, Relation.ReflTransGen (GoesBy settings answers) p q ∧ q.Steady settings ∧
      q.isDone = true := by
  refine exists_of_rank (rank settings) _ _ (fun p hp => ?_) hp
  by_cases hd : p.isDone = true
  · exact .inl hd
  obtain ⟨q, hq, hgo⟩ := hp.exists_move (by simpa using hd)
  obtain ⟨m, p', hm, hi, hstep⟩ := hgo (answers q)
  have hmove : GoesBy settings answers q p' := .inr ⟨m, hm, hstep⟩
  -- waiting leaves the rank and the invariant, and the move lowers the rank
  rcases hq with rfl | ⟨now, hwait⟩
  · exact .inr ⟨p', .single hmove, steady_step hstep hp, rank_step hstep hp hi⟩
  · have hq := steady_step hwait hp
    refine .inr ⟨p', .head (.inl ⟨now, hwait⟩) (.single hmove), steady_step hstep hq, ?_⟩
    rw [← rank_advance hwait]
    exact rank_step hstep hq hi

end Runs

/-! ### A producer at a full queue -/

/-- The phase of one sender and two messages, at a queue that has room for one. -/
def narrow : Phase WordStream :=
  ofPlan { queue := .bounded 1 } { queueCapacity := 1 } soloPlan
    (.create 3 (.ofSize 5) { word := fun _ => 0, place := 0 })

/-- The producer fills the queue and has the second message in its hand when the only sender is
refused its connection and leaves. -/
def refusal : List PhaseMove :=
  [.release, .produce, .produce, .sender 0 (.dialed (.error (.rejected "url" "refused")))]

end Phase

end LoadRig
