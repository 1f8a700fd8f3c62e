/-!
# The work queue

The generator of a phase and its senders meet at a bounded queue. One producer puts items in at the
back; any number of consumers take them from the front, and each item goes to one of them. The
producer waits while the queue is full, which is what holds the generator back. Either side can go
away: without consumers nothing can be put in any more, and without a producer the queue drains.

A wait is not part of the queue. An operation that would have to wait says so and changes nothing,
and whoever waits tries again.

The queue is held as two lists, so that both ends are at hand, and knows its size; `Queue.toList`
is the content in the order in which it will be taken.

## Main definitions

* `LoadRig.Queue` — content, capacity, and who is left on either side.
* `LoadRig.Queue.put`, `LoadRig.Queue.poll` — the two operations, with `PutResult` and `Polled`.
* `LoadRig.Queue.addConsumer`, `LoadRig.Queue.dropConsumer`, `LoadRig.Queue.dropProducer`

## Main results

* `LoadRig.Queue.toList_push`, `LoadRig.Queue.toList_pop` — putting in appends, taking removes the
  head.
-/

namespace LoadRig

/-- A bounded queue. -/
structure Queue (α : Type) where
  capacity : Nat
  front : List α
  /-- The items behind the front, the last one first. -/
  back : List α
  size : Nat
  /-- Whether items may still come. -/
  producer : Bool
  consumers : Nat
  size_eq : size = front.length + back.length := by rfl
deriving Repr

/-- What became of an item that was to be put in. -/
inductive PutResult where
  | done
  /-- The queue is full. -/
  | full
  /-- No consumer is left. -/
  | closed
deriving DecidableEq, Repr

/-- What became of a look at the front. -/
inductive Polled (α : Type) where
  | item (a : α)
  /-- Nothing is there yet. -/
  | empty
  /-- Nothing is there and nothing will come. -/
  | drained
deriving DecidableEq, Repr

/-- The text of the error for an item that no one can take any more. -/
def queueClosedMessage : String := "work queue closed: no consumers left"

namespace Queue

variable {α : Type}

/-- An empty queue between a producer and one consumer; capacity zero counts as one. -/
def bounded (capacity : Nat) : Queue α :=
  { capacity := max capacity 1, front := [], back := [], size := 0, producer := true,
    consumers := 1 }

instance : Inhabited (Queue α) := ⟨bounded 1⟩

/-- The content in the order in which it will be taken. -/
def toList (q : Queue α) : List α := q.front ++ q.back.reverse

/-- Whether nothing is in the queue. -/
def isEmpty (q : Queue α) : Bool := q.size == 0

/-- The queue with an item at its back, whatever its capacity. -/
def push (q : Queue α) (a : α) : Queue α :=
  { q with
    back := a :: q.back
    size := q.size + 1
    size_eq := by simp only [q.size_eq, List.length_cons]; omega }

/-- The front item and the queue without it. -/
def pop (q : Queue α) : Option (α × Queue α) :=
  match hf : q.front with
  | a :: front =>
    some (a, { q with
      front
      size := q.size - 1
      size_eq := by simp only [q.size_eq, hf, List.length_cons]; omega })
  | [] =>
    match hb : q.back.reverse with
    | [] => none
    | a :: front =>
      some (a, { q with
        front
        back := []
        size := q.size - 1
        size_eq := by
          have h : q.back.length = front.length + 1 := by
            rw [← List.length_reverse, hb, List.length_cons]
          simp only [q.size_eq, hf, List.length_nil]; omega })

/-- Puts an item in, if a consumer is left and there is room. -/
def put (q : Queue α) (a : α) : PutResult × Queue α :=
  if q.consumers = 0 then (.closed, q)
  else if q.capacity ≤ q.size then (.full, q)
  else (.done, q.push a)

/-- Looks at the front and takes the item that is there. -/
def poll (q : Queue α) : Polled α × Queue α :=
  match q.pop with
  | some (a, q) => (.item a, q)
  | none => (if q.producer then .empty else .drained, q)

/-- One more consumer. -/
def addConsumer (q : Queue α) : Queue α := { q with consumers := q.consumers + 1 }

/-- One consumer less. -/
def dropConsumer (q : Queue α) : Queue α := { q with consumers := q.consumers - 1 }

/-- No items will come any more. -/
def dropProducer (q : Queue α) : Queue α := { q with producer := false }

/-! ### The view -/

@[simp] theorem toList_bounded (capacity : Nat) : (bounded capacity : Queue α).toList = [] := rfl

@[simp] theorem toList_push (q : Queue α) (a : α) : (q.push a).toList = q.toList ++ [a] := by
  simp [toList, push]

@[simp] theorem toList_addConsumer (q : Queue α) : q.addConsumer.toList = q.toList := rfl

@[simp] theorem toList_dropConsumer (q : Queue α) : q.dropConsumer.toList = q.toList := rfl

@[simp] theorem toList_dropProducer (q : Queue α) : q.dropProducer.toList = q.toList := rfl

theorem length_toList (q : Queue α) : q.toList.length = q.size := by
  simp [toList, q.size_eq]

/-- Taking succeeds exactly when something is there, and then takes the head. -/
theorem toList_pop (q : Queue α) :
    q.pop.map (fun r => r.1 :: r.2.toList) = if q.toList = [] then none else some q.toList := by
  unfold pop
  split
  · next a front hf => simp [toList, hf]
  · next hf =>
    split
    · next hb => simp [toList, hf, hb]
    · next a front hb => simp [toList, hf, hb]

end Queue

end LoadRig
