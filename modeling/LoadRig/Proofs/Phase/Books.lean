import LoadRig.Phase
import LoadRig.Proofs.Moves
import LoadRig.Proofs.Producer
import LoadRig.Proofs.Sender.Standing
import Mathlib.Algebra.Order.Ring.Nat
/-!
# The books of a phase

A phase keeps its tallies in four places: with the producer, with each sender, in the counters and
in the records. `Phase.Books` says that they agree, and it is stated for a phase that is still under
way: what the producer has put in is what the senders have taken and what is still in the queue, and
what the senders have brought to an end is what was counted and recorded. It also keeps the number
of consumers of the queue, which is what the producer goes by.

Each move changes one party, so each move is one change to one sum. `total_set` is the only fact
about sums that is needed.

## Main definitions

* `LoadRig.Phase.total` — a sum over the senders of a phase.
* `LoadRig.Phase.Books` — the books of a phase are in order.
* `LoadRig.Phase.roster` — numbers, quotas and rooms of the senders.

## Main results

* `LoadRig.Phase.books_start`, `LoadRig.Phase.books_step`, `LoadRig.Phase.books_steps` — the books of
  every run are in order at all times.
* `LoadRig.Phase.roster_steps` — nobody changes its number, quota or room.
-/

namespace LoadRig

open LoadRig.Random

namespace Phase

/-- The sum of a number over some senders. -/
def total (f : Sender → Nat) (senders : List Sender) : Nat := (senders.map f).sum

/-- If the number of one element changes, the sum changes by as much. -/
theorem sum_map_set {α : Type} {f : α → Nat} {xs : List α} {i : Nat} {x x' : α} {m n : Nat}
    (hi : xs[i]? = some x) (hf : f x' + m = f x + n) :
    ((xs.set i x').map f).sum + m = (xs.map f).sum + n := by
  induction xs generalizing i with
  | nil => cases hi
  | cons a xs ih =>
    cases i with
    | zero =>
      obtain rfl : a = x := Option.some.inj hi
      simp only [List.set_cons_zero, List.map_cons, List.sum_cons]
      omega
    | succ i =>
      have := ih (by simpa using hi)
      simp only [List.set_cons_succ, List.map_cons, List.sum_cons] at this ⊢
      omega

/-- If one sender's number changes, the sum changes by as much. -/
theorem total_set {f : Sender → Nat} {senders : List Sender} {i : Nat} {s s' : Sender} {m n : Nat}
    (hi : senders[i]? = some s) (hf : f s' + m = f s + n) :
    total f (senders.set i s') + m = total f senders + n :=
  sum_map_set hi hf

/-- If one sender's number grows, the sum grows by as much. -/
theorem total_set_add {f : Sender → Nat} {senders : List Sender} {i : Nat} {s s' : Sender} {n : Nat}
    (hi : senders[i]? = some s) (hf : f s' = f s + n) :
    total f (senders.set i s') = total f senders + n :=
  total_set (m := 0) hi hf

/-- One for a sender that still holds an end of the queue. -/
def holds (s : Sender) : Nat := if s.isDone then 0 else 1

/-- What a sender has brought to an end, if it belongs to a room. -/
def concludedIn (room : Nat) (s : Sender) : Nat := if s.room = room then s.concluded else 0

/-- What a sender brings to an end in its room is recorded there. -/
theorem concludedIn_entered (room : Nat) {x y : Shared × Sender} {taken : List WorkItem}
    {ended : List SampleRecord} (h : Sender.Entered x taken ended y) :
    concludedIn room y.2 = concludedIn room x.2 + ended.countP (·.room == room) := by
  have hlen := length_eq_countP_outcome ended
  simp only [concludedIn]
  rw [h.room_eq]
  split
  · next hroom =>
    have hall : ended.countP (·.room == room) = ended.length :=
      List.countP_eq_length.mpr fun r hr => by simp [h.rooms r hr, hroom]
    have hs := h.succeeded_eq
    have hf := h.failed_eq
    simp only [Sender.concluded]
    omega
  · next hroom =>
    have hnone : ended.countP (·.room == room) = 0 :=
      List.countP_eq_zero.mpr fun r hr => by simp [h.rooms r hr, hroom]
    rw [hnone]

variable {σ : Type}

/-- The books of a phase are in order. -/
structure Books (p : Phase σ) : Prop where
  supply : p.producer.Fits p.shared.queue
  sound : ∀ s ∈ p.senders, s.Sound
  consumers : p.shared.queue.consumers = total holds p.senders + p.holding.toNat
  produced : p.producer.produced = total Sender.processed p.senders + p.shared.queue.toList.length
  succeeded : p.shared.counters.succeeded = total Sender.succeeded p.senders
  failed : p.shared.counters.failed = total Sender.failed p.senders
  ok : p.shared.pool.records.countP (·.outcome == .ok) = p.shared.counters.succeeded
  fail : p.shared.pool.records.countP (·.outcome == .fail) = p.shared.counters.failed
  rooms : ∀ room, p.shared.pool.records.countP (·.room == room) = total (concludedIn room) p.senders
  told : ∀ s ∈ p.senders, s.exit? = some .shutdown → p.shared.stopping = true

/-! ### New phases -/

theorem total_eq_mul {f : Sender → Nat} {senders : List Sender} {n : Nat}
    (h : ∀ s ∈ senders, f s = n) : total f senders = senders.length * n := by
  rw [total, List.map_congr_left h, List.map_const', List.sum_replicate_nat]

theorem eq_start_of_mem {shared : Shared} {capacity : Nat} {producer : Producer σ}
    {assignments : List (Nat × Nat)} {s : Sender}
    (h : s ∈ (start shared capacity producer assignments).senders) :
    ∃ id quota room, s = Sender.start id quota room := by
  obtain ⟨i, hi, rfl⟩ := List.mem_mapIdx.mp h
  exact ⟨_, _, _, rfl⟩

theorem total_start_eq_zero {shared : Shared} {capacity : Nat} {producer : Producer σ}
    {assignments : List (Nat × Nat)} {f : Sender → Nat}
    (hf : ∀ id quota room, f (Sender.start id quota room) = 0) :
    total f (start shared capacity producer assignments).senders = 0 := by
  refine total_eq_mul (n := 0) fun s hs => ?_
  obtain ⟨id, quota, room, rfl⟩ := eq_start_of_mem hs
  exact hf id quota room

/-- The books of a new phase are in order. -/
theorem books_start (shared : Shared) (capacity : Nat) (generator : MessageGenerator σ)
    (requested : Nat) (assignments : List (Nat × Nat)) :
    (start shared capacity (.start generator requested) assignments).Books where
  supply := Producer.fits_start _ _ rfl
  sound := by
    intro s hs
    obtain ⟨id, quota, room, rfl⟩ := eq_start_of_mem hs
    exact Sender.sound_start id quota room
  consumers := by
    have hone : total holds (start shared capacity (.start generator requested) assignments).senders
        = assignments.length * 1 := by
      rw [← List.length_mapIdx (l := assignments)
        (f := fun id (a : Nat × Nat) => Sender.start id a.1 a.2)]
      refine total_eq_mul fun s hs => ?_
      obtain ⟨id, quota, room, rfl⟩ := eq_start_of_mem hs
      rfl
    rw [hone, Nat.mul_one]; rfl
  produced := (total_start_eq_zero fun _ _ _ => rfl).symm
  succeeded := (total_start_eq_zero fun _ _ _ => rfl).symm
  failed := (total_start_eq_zero fun _ _ _ => rfl).symm
  ok := rfl
  fail := rfl
  rooms := by
    intro room
    refine (total_start_eq_zero fun _ _ _ => ?_).symm
    rw [concludedIn]
    split <;> rfl
  told := by
    intro s hs hexit
    obtain ⟨id, quota, room, rfl⟩ := eq_start_of_mem hs
    cases hexit

/-- The number, the quota and the room of each sender. -/
def roster (p : Phase σ) : List (Nat × Nat × Nat) :=
  p.senders.map fun s => (s.id, s.quota, s.room)

theorem roster_start (shared : Shared) (capacity : Nat) (producer : Producer σ)
    (assignments : List (Nat × Nat)) :
    (start shared capacity producer assignments).roster
      = assignments.mapIdx fun id (quota, room) => (id, quota, room) := by
  refine List.ext_getElem? fun i => ?_
  simp [roster, start, Sender.start, Function.comp_def]

variable {settings : RetrySettings} {p p' : Phase σ}

/-! ### What one party does -/

/-- A sender that meets an event leaves the books in order: its own entries and those of the phase
move together. -/
theorem Books.meet (hb : p.Books) {i : Nat} {s : Sender} {e : SenderEvent} {y : Shared × Sender}
    (hi : p.senders[i]? = some s) (h : s.step settings p.shared e = some y) :
    Books { p with shared := y.1, senders := p.senders.set i y.2 } := by
  obtain ⟨ended, he⟩ := Sender.entered_step h
  have hs : s ∈ p.senders := List.mem_of_getElem? hi
  have hdone := Sender.isDone_eq_false_of_step h
  have hcons := Sender.consumers_step h
  -- until then the sender has been one of the consumers
  have hhold : total holds (p.senders.set i y.2) + (if y.2.isDone then 1 else 0)
      = total holds p.senders := by
    refine total_set (n := 0) hi ?_
    simp only [holds]
    rw [hdone]
    cases y.2.isDone <;> rfl
  have hcontent : p.shared.queue.toList.length
      = (s.takes p.shared e).length + y.1.queue.toList.length := by
    rw [he.content, List.length_append]
  constructor
  case supply =>
    refine hb.supply.of_sides he.producer_eq ?_
    rw [hcons]
    split <;> omega
  case sound =>
    intro s' hs'
    rcases List.mem_or_eq_of_mem_set hs' with hs' | rfl
    · exact hb.sound s' hs'
    · exact Sender.sound_step h (hb.sound s hs)
  case consumers =>
    show y.1.queue.consumers = total holds (p.senders.set i y.2) + p.holding.toNat
    have hc := hb.consumers
    rw [hcons]
    split at hhold
    · next hd => rw [if_pos hd]; omega
    · next hd => rw [if_neg hd]; omega
  case produced =>
    show p.producer.produced = total Sender.processed (p.senders.set i y.2) + y.1.queue.toList.length
    rw [total_set_add hi he.processed_eq, hb.produced]
    omega
  case succeeded =>
    show y.1.counters.succeeded = total Sender.succeeded (p.senders.set i y.2)
    rw [total_set_add hi he.succeeded_eq, ← hb.succeeded, he.counted_ok]
  case failed =>
    show y.1.counters.failed = total Sender.failed (p.senders.set i y.2)
    rw [total_set_add hi he.failed_eq, ← hb.failed, he.counted_fail]
  case ok =>
    show y.1.pool.records.countP _ = y.1.counters.succeeded
    rw [he.recorded, List.countP_append, he.counted_ok, hb.ok]
  case fail =>
    show y.1.pool.records.countP _ = y.1.counters.failed
    rw [he.recorded, List.countP_append, he.counted_fail, hb.fail]
  case rooms =>
    intro room
    show y.1.pool.records.countP _ = total (concludedIn room) (p.senders.set i y.2)
    rw [he.recorded, List.countP_append, hb.rooms]
    exact (total_set_add hi (concludedIn_entered room he)).symm
  case told =>
    intro s' hs' hexit
    show y.1.stopping = true
    rw [he.stopping_eq]
    rcases List.mem_or_eq_of_mem_set hs' with hs' | rfl
    · exact hb.told s' hs' hexit
    · rcases Sender.grounds_step h hexit with hold | ⟨-, hstop⟩
      · exact hb.told s hs hold
      · exact hstop

/-- When the phase lets go of the queue, the queue has one consumer less. -/
theorem Books.release (hb : p.Books) (hh : p.holding = true) :
    Books { p with
      holding := false
      shared := { p.shared with queue := p.shared.queue.dropConsumer } } where
  supply := hb.supply.of_sides rfl (Nat.sub_le _ _)
  sound := hb.sound
  consumers := by
    show p.shared.queue.consumers - 1 = total holds p.senders + 0
    rw [hb.consumers, hh]; rfl
  produced := hb.produced
  succeeded := hb.succeeded
  failed := hb.failed
  ok := hb.ok
  fail := hb.fail
  rooms := hb.rooms
  told := hb.told

section Runs

variable [WordSource σ]

/-- A turn of the producer leaves the books in order: what it puts in, it counts. -/
theorem Books.produce (hb : p.Books) {y : Producer σ × Queue WorkItem}
    (h : p.producer.step p.shared.instant p.shared.queue = some y) :
    Books { p with producer := y.1, shared := { p.shared with queue := y.2 } } where
  supply := Producer.fits_step h hb.supply
  sound := hb.sound
  consumers := (Producer.consumers_step h).trans hb.consumers
  produced := by
    show y.1.produced = total Sender.processed p.senders + y.2.toList.length
    rw [Producer.produced_step h, hb.produced, Producer.content_step h, List.length_append]
    omega
  succeeded := hb.succeeded
  failed := hb.failed
  ok := hb.ok
  fail := hb.fail
  rooms := hb.rooms
  told := hb.told

/-! ### One move -/

/-- What a move can make of a phase: one party does something, and the rest of the phase stays. -/
inductive Does (settings : RetrySettings) (p : Phase σ) : PhaseMove → Phase σ → Prop
  | produce (y : Producer σ × Queue WorkItem)
      (h : p.producer.step p.shared.instant p.shared.queue = some y) :
      Does settings p .produce { p with producer := y.1, shared := { p.shared with queue := y.2 } }
  | release (h : p.holding = true) :
      Does settings p .release
        { p with
          holding := false
          shared := { p.shared with queue := p.shared.queue.dropConsumer } }
  | sender (i : Nat) (e : SenderEvent) (s : Sender) (y : Shared × Sender)
      (hi : p.senders[i]? = some s) (h : s.step settings p.shared e = some y) :
      Does settings p (.sender i e) { p with shared := y.1, senders := p.senders.set i y.2 }
  | stop : Does settings p .stop { p with shared := { p.shared with stopping := true } }
  | advance (now : Moment) (h : p.shared.now < now) :
      Does settings p (.advance now) { p with shared := { p.shared with now } }

theorem does_of_step {m : PhaseMove} (h : p.step settings m = some p') : Does settings p m p' := by
  unfold step at h
  split at h
  · obtain ⟨y, hy, rfl⟩ := Option.map_eq_some_iff.mp h
    exact .produce y hy
  · split at h
    · next hh => rw [← Option.some.inj h]; exact .release hh
    · cases h
  · next i e =>
    split at h
    · cases h
    · next s hi =>
      obtain ⟨y, hy, rfl⟩ := Option.map_eq_some_iff.mp h
      exact .sender i e s y hi hy
  · rw [← Option.some.inj h]; exact .stop
  · next now =>
    split at h
    · next hn => rw [← Option.some.inj h]; exact .advance now hn
    · cases h

/-- **Every move leaves the books in order.** -/
theorem books_step {m : PhaseMove} (h : p.step settings m = some p') (hb : p.Books) : p'.Books := by
  cases does_of_step h with
  | produce y hy => exact hb.produce hy
  | release hh => exact hb.release hh
  | sender i e s y hi hy => exact hb.meet hi hy
  | stop => exact { hb with told := fun _ _ _ => rfl }
  | advance now hn => exact { hb with }

/-! ### Whole runs -/

/-- The moves of a phase follow one another as those of every system do. -/
theorem steps_eq_follow (p : Phase σ) (ms : List PhaseMove) :
    p.steps settings ms = Moves.follow (step settings) p ms := by
  induction ms generalizing p with
  | nil => rfl
  | cons m ms ih => simp only [steps, Moves.follow, ih]

/-- What every move preserves holds at the end of every run that it holds at the beginning of. -/
theorem steps_induction {P : Phase σ → Prop}
    (hstep : ∀ (p p' : Phase σ) (m : PhaseMove), p.step settings m = some p' → P p → P p')
    {ms : List PhaseMove} (h : p.steps settings ms = some p') (hp : P p) : P p' := by
  rw [steps_eq_follow] at h
  exact Moves.invariant (fun p m p' hp hm => hstep p p' m hm hp) h hp

theorem steps_append {q : Phase σ} {ms ns : List PhaseMove} (h : p.steps settings ms = some p')
    (h' : p'.steps settings ns = some q) : p.steps settings (ms ++ ns) = some q := by
  rw [steps_eq_follow] at h h' ⊢
  exact (Moves.follow_append h).trans h'

theorem steps_of_append {q : Phase σ} {ms ns : List PhaseMove}
    (h : p.steps settings (ms ++ ns) = some q) (h' : p.steps settings ms = some p') :
    p'.steps settings ns = some q := by
  rw [steps_eq_follow] at h h' ⊢
  exact (Moves.follow_append h').symm.trans h

theorem books_steps {ms : List PhaseMove} (h : p.steps settings ms = some p') (hb : p.Books) :
    p'.Books :=
  steps_induction (fun _ _ _ => books_step) h hb

/-- Nobody changes its number, quota or room. -/
theorem roster_step {m : PhaseMove} (h : p.step settings m = some p') : p'.roster = p.roster := by
  cases does_of_step h with
  | produce | release | stop | advance => rfl
  | sender i e s y hi hy =>
    obtain ⟨ended, he⟩ := Sender.entered_step hy
    have hsame : (y.2.id, y.2.quota, y.2.room) = (s.id, s.quota, s.room) := by
      rw [he.id_eq, he.quota_eq, he.room_eq]
    obtain ⟨hlt, rfl⟩ := List.getElem?_eq_some_iff.mp hi
    have hself := @List.set_getElem_self _ p.roster i (by simpa [roster] using hlt)
    simpa [roster, hsame] using hself

theorem roster_steps {ms : List PhaseMove} (h : p.steps settings ms = some p') :
    p'.roster = p.roster :=
  steps_induction (P := fun q => q.roster = p.roster)
    (fun _ _ _ hstep hq => (roster_step hstep).trans hq) h rfl

/-- The producer is always asked for the same number of messages. -/
theorem requested_step {m : PhaseMove} (h : p.step settings m = some p') :
    p'.producer.requested = p.producer.requested := by
  cases does_of_step h with
  | produce y hy => exact Producer.requested_step hy
  | release | sender | stop | advance => rfl

theorem requested_steps {ms : List PhaseMove} (h : p.steps settings ms = some p') :
    p'.producer.requested = p.producer.requested :=
  steps_induction (P := fun q => q.producer.requested = p.producer.requested)
    (fun _ _ _ hstep hq => (requested_step hstep).trans hq) h rfl

end Runs

end Phase

end LoadRig
