import LoadRig.Producer
import LoadRig.Proofs.Queue
/-!
# What a producer puts in

A producer counts what it puts in. It ends for one of two reasons: it has put in all that was asked
for, or nobody was left to take a message. The second reason cannot arise while somebody holds an end
of the queue, which is what makes the number of messages certain.

## Main definitions

* `LoadRig.Producer.puts` — what a producer puts in when its turn comes.
* `LoadRig.Producer.Fits` — the count of a producer fits the queue that it fills.
* `LoadRig.Producer.effort` — what is left to do for a producer at most.

## Main results

* `LoadRig.Producer.fits_start`, `LoadRig.Producer.fits_step` — it fits at all times.
* `LoadRig.Producer.content_step`, `LoadRig.Producer.produced_step` — what is put in stands at the
  end of the queue and is counted.
* `LoadRig.Producer.effort_step`, `LoadRig.Producer.exists_step`, `LoadRig.Producer.finished_step` —
  a producer comes closer to its end with every turn, gets its turn if there is room or nobody is
  left, and in the second case ends.
-/

namespace LoadRig

open LoadRig.Random

namespace Producer

variable {σ : Type} [WordSource σ]

/-- What a producer puts in when its turn comes: the next message, unless it has ended or the queue
does not take one. -/
def puts (now : Time.Instant) (p : Producer σ) (q : Queue WorkItem) : List WorkItem :=
  if p.finished ∨ p.produced = p.requested then []
  else
    match q.put (p.prepare now).1 with
    | (.done, _) => [(p.prepare now).1]
    | _ => []

/-- The count of a producer fits the queue that it fills: it is not more than was asked for, the
queue knows whether more may come, and a producer ends early only if nobody is left to take
anything. -/
structure Fits (p : Producer σ) (q : Queue WorkItem) : Prop where
  within : p.produced ≤ p.requested
  flag : q.producer = !p.finished
  ended : p.finished = true → p.produced = p.requested ∨ q.consumers = 0

/-- What a turn can make of a producer and its queue. -/
inductive Does (now : Time.Instant) (p : Producer σ) (q : Queue WorkItem) :
    Producer σ × Queue WorkItem → Prop
  | ended (h : p.produced = p.requested) :
      Does now p q ({ p with finished := true }, q.dropProducer)
  | placed (h : p.produced ≠ p.requested) (q' : Queue WorkItem)
      (hq : q.put (p.prepare now).1 = (.done, q')) :
      Does now p q ({ (p.prepare now).2 with held := none, produced := p.produced + 1 }, q')
  | deserted (h : p.produced ≠ p.requested) (q' : Queue WorkItem)
      (hq : q.put (p.prepare now).1 = (.closed, q')) :
      Does now p q ({ (p.prepare now).2 with held := none, finished := true }, q'.dropProducer)
  | held (h : p.produced ≠ p.requested) (q' : Queue WorkItem)
      (hq : q.put (p.prepare now).1 = (.full, q')) : Does now p q ((p.prepare now).2, q)

variable {now : Time.Instant} {p : Producer σ} {q q' : Queue WorkItem}
  {y : Producer σ × Queue WorkItem}

theorem does_of_step (h : p.step now q = some y) : p.finished = false ∧ Does now p q y := by
  unfold step at h
  split at h
  · cases h
  · next hf =>
    refine ⟨by simpa using hf, ?_⟩
    split at h
    · next hr => rw [← Option.some.inj h]; exact .ended hr
    · next hr =>
      simp only at h
      split at h
      · next q' hq => rw [← Option.some.inj h]; exact .placed hr q' hq
      · next q' hq => rw [← Option.some.inj h]; exact .deserted hr q' hq
      · next q' hq =>
        split at h
        · rw [← Option.some.inj h]; exact .held hr q' hq
        · cases h

/-- Taking the next message into its hand changes neither the counts nor the end. -/
theorem counts_prepare (p : Producer σ) (now : Time.Instant) :
    (p.prepare now).2.requested = p.requested ∧ (p.prepare now).2.produced = p.produced ∧
      (p.prepare now).2.finished = p.finished := by
  rw [prepare]
  cases p.held with
  | some item => exact ⟨rfl, rfl, rfl⟩
  | none =>
    obtain ⟨item, generator⟩ := p.generator.next now
    exact ⟨rfl, rfl, rfl⟩

theorem requested_step (h : p.step now q = some y) : y.1.requested = p.requested := by
  have hp := (p.counts_prepare now).1
  cases (does_of_step h).2 with
  | ended _ => rfl
  | placed _ q' _ | deserted _ q' _ | held _ q' _ => exact hp

theorem puts_of_put_ne_done {r : PutResult} (hr : r ≠ .done)
    (h : q.put (p.prepare now).1 = (r, q')) : p.puts now q = [] := by
  rw [puts]
  split
  · rfl
  · rw [h]
    cases r with
    | done => exact absurd rfl hr
    | full | closed => rfl

theorem puts_of_put_done (hf : p.finished = false) (hr : p.produced ≠ p.requested)
    (h : q.put (p.prepare now).1 = (.done, q')) : p.puts now q = [(p.prepare now).1] := by
  simp [puts, hf, hr, h]

/-- What is put in stands at the end of the queue. -/
theorem content_step (h : p.step now q = some y) :
    y.2.toList = q.toList ++ p.puts now q := by
  obtain ⟨hf, hm⟩ := does_of_step h
  cases hm with
  | ended hr => simp [puts, hr]
  | placed hr q' hq =>
    obtain ⟨-, rfl⟩ := Queue.put_done hq
    rw [puts_of_put_done hf hr hq, Queue.toList_push]
  | deserted hr q' hq =>
    obtain ⟨-, rfl⟩ := Queue.put_closed hq
    simp [puts_of_put_ne_done (by simp) hq]
  | held hr q' hq => simp [puts_of_put_ne_done (by simp) hq]

/-- What is put in is counted. -/
theorem produced_step (h : p.step now q = some y) :
    y.1.produced = p.produced + (p.puts now q).length := by
  obtain ⟨hf, hm⟩ := does_of_step h
  have hp := (p.counts_prepare now).2.1
  cases hm with
  | ended hr => simp [puts, hr]
  | placed hr q' hq => simp [puts_of_put_done hf hr hq]
  | deserted hr q' hq | held hr q' hq => simp [puts_of_put_ne_done (by simp) hq, hp]

/-- A producer does not change who may take from its queue. -/
theorem consumers_step (h : p.step now q = some y) : y.2.consumers = q.consumers := by
  cases (does_of_step h).2 with
  | ended _ => rfl
  | placed _ q' hq =>
    obtain ⟨-, rfl⟩ := Queue.put_done hq
    rfl
  | deserted _ q' hq =>
    obtain ⟨-, rfl⟩ := Queue.put_closed hq
    rfl
  | held _ q' _ => rfl

omit [WordSource σ] in
theorem fits_start (generator : MessageGenerator σ) (requested : Nat) (h : q.producer = true) :
    (start generator requested).Fits q :=
  ⟨Nat.zero_le _, h, by simp [start]⟩

omit [WordSource σ] in
/-- Senders that take, and senders that go, leave the count of the producer fitting. -/
theorem Fits.of_sides (h : p.Fits q) (hp : q'.producer = q.producer)
    (hc : q'.consumers ≤ q.consumers) : p.Fits q' where
  within := h.within
  flag := hp.trans h.flag
  ended hf := (h.ended hf).imp_right fun h0 => by omega

/-- **The count of a producer fits its queue at all times.** -/
theorem fits_step (h : p.step now q = some y) (hp : p.Fits q) : y.1.Fits y.2 := by
  obtain ⟨hf, hm⟩ := does_of_step h
  obtain ⟨hreq, hprod, hfin⟩ := p.counts_prepare now
  have hle := hp.within
  have hflag : q.producer = true := by rw [hp.flag, hf]; rfl
  cases hm with
  | ended hr => exact ⟨hle, rfl, fun _ => .inl hr⟩
  | placed hr q' hq =>
    obtain ⟨-, rfl⟩ := Queue.put_done hq
    refine ⟨?_, ?_, ?_⟩
    · show p.produced + 1 ≤ (p.prepare now).2.requested
      omega
    · simp [hfin, hf, hflag]
    · simp [hfin, hf]
  | deserted hr q' hq =>
    obtain ⟨hc, rfl⟩ := Queue.put_closed hq
    refine ⟨?_, rfl, fun _ => .inr hc⟩
    show (p.prepare now).2.produced ≤ (p.prepare now).2.requested
    omega
  | held hr q' hq =>
    refine ⟨?_, ?_, ?_⟩
    · show (p.prepare now).2.produced ≤ (p.prepare now).2.requested
      omega
    · rw [hfin, hf, hflag]; rfl
    · simp [hfin, hf]

/-! ### What is left to do -/

omit [WordSource σ] in
/-- What is left to do for a producer at most: for each message, taking it into its hand and putting
it in, and at last to end. -/
def effort (p : Producer σ) : Nat :=
  2 * (p.requested - p.produced) + p.held.isNone.toNat + 2 * (!p.finished).toNat

/-- A producer that takes a message into its hand had none in it. -/
theorem held_eq_none_of_full (h : p.step now q = some y) (hr : p.produced ≠ p.requested)
    (hq : q.put (p.prepare now).1 = (.full, q')) : p.held = none := by
  unfold step at h
  simp only [hr, hq, if_false] at h
  split at h
  · cases h
  · split at h
    · next hn => exact Option.isNone_iff_eq_none.mp hn
    · cases h

theorem held_prepare (p : Producer σ) (now : Time.Instant) :
    (p.prepare now).2.held.isNone = false := by
  rw [prepare]
  cases hp : p.held with
  | some item => simp [hp]
  | none =>
    obtain ⟨item, generator⟩ := p.generator.next now
    rfl

/-- **Every turn of a producer lowers what is left to do for it.** -/
theorem effort_step (h : p.step now q = some y) (hp : p.Fits q) : y.1.effort < p.effort := by
  obtain ⟨hf, hm⟩ := does_of_step h
  obtain ⟨hreq, hprod, hfin⟩ := p.counts_prepare now
  have hle := hp.within
  have hheld := Bool.toNat_le p.held.isNone
  cases hm with
  | ended hr => simp [effort, hf]
  | placed hr q' hq =>
    simp only [effort, hreq, hfin, hf, Option.isNone_none, Bool.toNat_true]
    omega
  | deserted hr q' hq =>
    simp only [effort, hreq, hprod, hf, Option.isNone_none, Bool.not_true, Bool.not_false,
      Bool.toNat_true, Bool.toNat_false]
    omega
  | held hr q' hq =>
    simp only [effort, hreq, hprod, hfin, held_prepare, held_eq_none_of_full h hr hq,
      Option.isNone_none, Bool.toNat_true, Bool.toNat_false]
    omega

/-- A producer that has not ended can take its turn while there is room or nobody is left. -/
theorem exists_step (now : Time.Instant) (hf : p.finished = false)
    (hq : q.consumers = 0 ∨ q.size < q.capacity) : ∃ y, p.step now q = some y := by
  rw [← Option.isSome_iff_exists]
  by_cases hr : p.produced = p.requested
  · simp [step, hf, hr]
  · rcases hput : q.put (p.prepare now).1 with ⟨r, q'⟩
    cases r with
    | done | closed => simp [step, hf, hr, hput]
    | full =>
      obtain ⟨hpos, hfull⟩ := Queue.put_full hput
      omega

/-- A producer that nobody is left to serve ends at its next turn, whatever it has in its hand. -/
theorem finished_step (h : p.step now q = some y) (hq : q.consumers = 0) :
    y.1.finished = true := by
  cases (does_of_step h).2 with
  | ended hr => rfl
  | placed hr q' hput => exact absurd (Queue.put_done hput).1 (by omega)
  | deserted hr q' hput => rfl
  | held hr q' hput => exact absurd (Queue.put_full hput).1 (by omega)

theorem capacity_step (h : p.step now q = some y) : y.2.capacity = q.capacity := by
  cases (does_of_step h).2 with
  | ended hr => rfl
  | placed hr q' hput =>
    obtain ⟨-, rfl⟩ := Queue.put_done hput
    rfl
  | deserted hr q' hput =>
    obtain ⟨-, rfl⟩ := Queue.put_closed hput
    rfl
  | held hr q' hput => rfl

end Producer

end LoadRig
