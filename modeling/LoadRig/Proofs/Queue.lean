import LoadRig.Queue
/-!
# What a queue does with its content

The two operations of a queue, seen from the list of its content. Each lemma says everything that an
operation can have done when it gave a certain answer, so that nobody has to look at the two halves
of the queue again.

## Main results

* `LoadRig.Queue.poll_item`, `LoadRig.Queue.poll_drained` — a look that found something, or learned
  that nothing will come.
* `LoadRig.Queue.put_done`, `LoadRig.Queue.put_closed` — an item that was put in, or refused for good.
-/

namespace LoadRig

namespace Queue

variable {α : Type} {q q' : Queue α} {a : α}

@[simp] theorem consumers_dropConsumer (q : Queue α) :
    q.dropConsumer.consumers = q.consumers - 1 := rfl

@[simp] theorem producer_dropConsumer (q : Queue α) : q.dropConsumer.producer = q.producer := rfl

@[simp] theorem consumers_dropProducer (q : Queue α) : q.dropProducer.consumers = q.consumers := rfl

@[simp] theorem producer_dropProducer (q : Queue α) : q.dropProducer.producer = false := rfl

@[simp] theorem capacity_dropConsumer (q : Queue α) : q.dropConsumer.capacity = q.capacity := rfl

@[simp] theorem capacity_dropProducer (q : Queue α) : q.dropProducer.capacity = q.capacity := rfl

@[simp] theorem capacity_addConsumer (q : Queue α) : q.addConsumer.capacity = q.capacity := rfl

@[simp] theorem consumers_addConsumer (q : Queue α) :
    q.addConsumer.consumers = q.consumers + 1 := rfl

@[simp] theorem producer_addConsumer (q : Queue α) : q.addConsumer.producer = q.producer := rfl

@[simp] theorem capacity_push (q : Queue α) (a : α) : (q.push a).capacity = q.capacity := rfl

@[simp] theorem consumers_push (q : Queue α) (a : α) : (q.push a).consumers = q.consumers := rfl

@[simp] theorem producer_push (q : Queue α) (a : α) : (q.push a).producer = q.producer := rfl

/-! ### Taking -/

/-- What is left of a queue whose front item was taken has the same sides and the same capacity. -/
theorem sides_pop (h : q.pop = some (a, q')) :
    q'.producer = q.producer ∧ q'.consumers = q.consumers ∧ q'.capacity = q.capacity := by
  unfold pop at h
  split at h
  · obtain ⟨-, rfl⟩ := Prod.mk.inj (Option.some.inj h)
    exact ⟨rfl, rfl, rfl⟩
  · split at h
    · cases h
    · obtain ⟨-, rfl⟩ := Prod.mk.inj (Option.some.inj h)
      exact ⟨rfl, rfl, rfl⟩

theorem toList_of_pop (h : q.pop = some (a, q')) : q.toList = a :: q'.toList := by
  have hp := q.toList_pop
  rw [h] at hp
  split at hp
  · cases hp
  · simpa using hp.symm

theorem toList_eq_nil_of_pop (h : q.pop = none) : q.toList = [] := by
  have hp := q.toList_pop
  rw [h] at hp
  split at hp
  · assumption
  · cases hp

/-- A look that found an item took the head of the content and nothing else. -/
theorem poll_item (h : q.poll = (.item a, q')) :
    q.toList = a :: q'.toList ∧ q'.producer = q.producer ∧ q'.consumers = q.consumers := by
  unfold poll at h
  split at h
  · next b r hp =>
    obtain ⟨hb, rfl⟩ := Prod.mk.inj h
    cases hb
    exact ⟨toList_of_pop hp, (sides_pop hp).1, (sides_pop hp).2.1⟩
  · split at h <;> cases h

theorem capacity_poll_item (h : q.poll = (.item a, q')) : q'.capacity = q.capacity := by
  unfold poll at h
  split at h
  · next b r hp =>
    obtain ⟨-, rfl⟩ := Prod.mk.inj h
    exact (sides_pop hp).2.2
  · split at h <;> cases h

/-- A look learns that nothing will come only if nothing is there and the producer has gone. -/
theorem poll_drained (h : q.poll = (.drained, q')) :
    q.toList = [] ∧ q.producer = false := by
  unfold poll at h
  split at h
  · cases h
  · next hp =>
    cases hq : q.producer with
    | true => simp [hq] at h
    | false => exact ⟨toList_eq_nil_of_pop hp, rfl⟩

/-- A look finds nothing yet only if nothing is there and more may come. -/
theorem poll_empty (h : q.poll = (.empty, q')) : q.toList = [] ∧ q.producer = true := by
  unfold poll at h
  split at h
  · cases h
  · next hp =>
    cases hq : q.producer with
    | true => exact ⟨toList_eq_nil_of_pop hp, rfl⟩
    | false => simp [hq] at h

/-- A look that finds no item leaves the queue as it is. -/
theorem eq_of_poll {r : Polled α} (h : q.poll = (r, q')) (hr : ∀ a, r ≠ .item a) : q' = q := by
  unfold poll at h
  split at h
  · next b rest hp => exact absurd (Prod.mk.inj h).1.symm (hr b)
  · exact (Prod.mk.inj h).2.symm

theorem isEmpty_iff (q : Queue α) : q.isEmpty = true ↔ q.toList = [] := by
  rw [← List.length_eq_zero_iff, length_toList, isEmpty, beq_iff_eq]

/-! ### Putting in -/

/-- An item that was put in stands at the end, and somebody is left to take it. -/
theorem put_done (h : q.put a = (.done, q')) : 0 < q.consumers ∧ q' = q.push a := by
  unfold put at h
  split at h
  · cases h
  · split at h
    · cases h
    · next hc _ => exact ⟨by omega, (Prod.mk.inj h).2.symm⟩

/-- An item goes in only where there is room. -/
theorem size_lt_of_put_done (h : q.put a = (.done, q')) : q.size < q.capacity := by
  unfold put at h
  split at h
  · cases h
  · split at h
    · cases h
    · next hs => exact Nat.lt_of_not_le hs

/-- An item has to wait only if somebody is left to take it and the queue is full. -/
theorem put_full (h : q.put a = (.full, q')) : 0 < q.consumers ∧ q.capacity ≤ q.size := by
  unfold put at h
  split at h
  · cases h
  · split at h
    · next hc hs => exact ⟨by omega, hs⟩
    · cases h

/-- An item is refused for good only if nobody is left to take it. -/
theorem put_closed (h : q.put a = (.closed, q')) : q.consumers = 0 ∧ q' = q := by
  unfold put at h
  split at h
  · next hc => exact ⟨hc, (Prod.mk.inj h).2.symm⟩
  · split at h <;> cases h

end Queue

end LoadRig
