import LoadRig.Proofs.Moves
import LoadRig.Proofs.Queue
/-!
# The course of a queue

One producer puts items into a queue, one after the other, and any number of consumers take them.
A put may have to wait for room and a poll for an item: whoever waits looks now and then, until the
call has its answer or is given up. Meanwhile consumers get companions and go away, and at some
time the producer goes away too. `QueueCourse` is a queue together with those who hold an end of it,
those who wait at it, and the answers of all calls so far, in order.

Calls overlap as they like; only the producer makes one call at a time. An end cannot be let go of
in the middle of a call, so a party that goes away while it waits has given its call up before.

The items that polls have returned are then a beginning of those whose put succeeded, and the rest
of these is what the queue holds. An item that was refused is in neither list, and nobody is left
who could take anything. Once the queue is drained it stays so.

## Main definitions

* `LoadRig.QueueCourse`, `LoadRig.QueueMove`, `LoadRig.QueueAnswer`
* `LoadRig.QueueCourse.step`, `LoadRig.QueueCourse.steps` — what moves make of a course.
* `LoadRig.QueueCourse.placed`, `LoadRig.QueueCourse.taken` — what went in and what came out.
* `LoadRig.QueueCourse.Lawful` — the answers that a queue may give.

## Main results

* `LoadRig.QueueCourse.does_of_step` — what a move can make of a course.
* `LoadRig.QueueCourse.sound_step`, `LoadRig.QueueCourse.sound_steps` — the invariant.
* `LoadRig.QueueCourse.deserted_step`, `LoadRig.QueueCourse.dry_step` — what never changes any more.
* `LoadRig.QueueCourse.lawful_of_steps` — the answers of every course.
-/

namespace LoadRig

/-- The answer to a call at a queue. A put that was given up was waiting at a full queue. -/
inductive QueueAnswer (α : Type) where
  | put (item : α) (r : PutResult)
  | poll (consumer : Nat) (r : Polled α)
deriving DecidableEq, Repr

/-- A queue, who holds an end of it and who waits at it, and the answers so far. -/
structure QueueCourse (α : Type) where
  queue : Queue α
  /-- The consumers that are left. -/
  ends : List Nat
  /-- The item that the producer has in its hand while a put lasts. -/
  held : Option α := none
  /-- The consumers that are in the middle of a poll, each once for each of its polls. -/
  waiting : List Nat := []
  answers : List (QueueAnswer α) := []

/-- What can happen at a queue. -/
inductive QueueMove (α : Type) where
  /-- The producer begins to put an item in. -/
  | put (item : α)
  /-- The producer looks whether its item can go in. -/
  | press
  /-- The producer gives its put up. -/
  | withdraw
  /-- A consumer begins to poll. -/
  | poll (consumer : Nat)
  /-- A consumer in the middle of a poll looks at the queue; the flag tells whether its time is
  over. -/
  | look (consumer : Nat) (last : Bool)
  /-- A consumer gives its poll up. -/
  | abandon (consumer : Nat)
  /-- A consumer gets a companion. -/
  | clone (consumer companion : Nat)
  | drop (consumer : Nat)
  | dropProducer

/-- An item whose put succeeded. -/
def QueueAnswer.placed? {α : Type} : QueueAnswer α → Option α
  | .put a .done => some a
  | _ => none

/-- An item that a poll returned. -/
def QueueAnswer.taken? {α : Type} : QueueAnswer α → Option α
  | .poll _ (.item a) => some a
  | _ => none

namespace QueueCourse

variable {α : Type}

/-- A new queue, with a producer and consumer zero. -/
def start (capacity : Nat) : QueueCourse α := { queue := .bounded capacity, ends := [0] }

/-- The items whose put succeeded, in order. -/
def placed (c : QueueCourse α) : List α := c.answers.filterMap (·.placed?)

/-- The items that polls returned, in order. -/
def taken (c : QueueCourse α) : List α := c.answers.filterMap (·.taken?)

/-- One more call has its answer. -/
def answer (c : QueueCourse α) (r : QueueAnswer α) : QueueCourse α :=
  { c with answers := c.answers ++ [r] }

/-- The producer looks whether an item can go in, and waits while the queue is full. -/
def offer (c : QueueCourse α) (a : α) : QueueCourse α :=
  match c.queue.put a with
  | (.full, _) => c
  | (r, queue) => { c with queue, held := none }.answer (.put a r)

/-- A consumer looks at the queue, and waits while nothing is there and its time is not over. -/
def glance (c : QueueCourse α) (i : Nat) (last : Bool) : QueueCourse α :=
  match c.queue.poll, last with
  | (.empty, _), false => c
  | (r, queue), _ => { c with queue, waiting := c.waiting.erase i }.answer (.poll i r)

/-- What a move makes of a course; nothing if the move cannot happen. -/
def step (c : QueueCourse α) : QueueMove α → Option (QueueCourse α)
  | .put a => if c.queue.producer ∧ c.held.isNone then some { c with held := some a } else none
  | .press => c.held.map c.offer
  | .withdraw => c.held.map fun a => { c with held := none }.answer (.put a .full)
  | .poll i => if i ∈ c.ends then some { c with waiting := i :: c.waiting } else none
  | .look i last => if i ∈ c.waiting then some (c.glance i last) else none
  | .abandon i =>
    if i ∈ c.waiting then some { c with waiting := c.waiting.erase i } else none
  | .clone i companion =>
    if i ∈ c.ends ∧ companion ∉ c.ends then
      some { c with queue := c.queue.addConsumer, ends := companion :: c.ends }
    else none
  | .drop i =>
    if i ∈ c.ends ∧ i ∉ c.waiting then
      some { c with queue := c.queue.dropConsumer, ends := c.ends.erase i }
    else none
  | .dropProducer =>
    if c.queue.producer ∧ c.held.isNone then some { c with queue := c.queue.dropProducer }
    else none

/-- What a list of moves makes of a course. -/
def steps (c : QueueCourse α) (ms : List (QueueMove α)) : Option (QueueCourse α) :=
  Moves.follow step c ms

variable {c c' : QueueCourse α} {m : QueueMove α} {ms : List (QueueMove α)}

@[simp] theorem placed_answer (c : QueueCourse α) (r : QueueAnswer α) :
    (c.answer r).placed = c.placed ++ r.placed?.toList := by
  cases h : r.placed? <;> simp [placed, answer, h]

@[simp] theorem taken_answer (c : QueueCourse α) (r : QueueAnswer α) :
    (c.answer r).taken = c.taken ++ r.taken?.toList := by
  cases h : r.taken? <;> simp [taken, answer, h]

/-! ### Single moves -/

/-- What a move can make of a course: one case for each move, and for a look one for each thing that
can be found. -/
inductive Does (c : QueueCourse α) : QueueMove α → QueueCourse α → Prop
  | put (a : α) (hp : c.queue.producer = true) : Does c (.put a) { c with held := some a }
  | placed (a : α) (ha : c.held = some a) (hc : 0 < c.queue.consumers)
      (hs : c.queue.size < c.queue.capacity) :
      Does c .press ({ c with queue := c.queue.push a, held := none }.answer (.put a .done))
  | refused (a : α) (ha : c.held = some a) (hc : c.queue.consumers = 0) :
      Does c .press ({ c with held := none }.answer (.put a .closed))
  | pressed (a : α) (ha : c.held = some a) : Does c .press c
  | withdrawn (a : α) (ha : c.held = some a) :
      Does c .withdraw ({ c with held := none }.answer (.put a .full))
  | poll (i : Nat) (hi : i ∈ c.ends) : Does c (.poll i) { c with waiting := i :: c.waiting }
  | took (i : Nat) (last : Bool) (a : α) (queue : Queue α) (hi : i ∈ c.waiting)
      (hq : c.queue.poll = (.item a, queue)) :
      Does c (.look i last)
        ({ c with queue, waiting := c.waiting.erase i }.answer (.poll i (.item a)))
  | drained (i : Nat) (last : Bool) (hi : i ∈ c.waiting) (hq : c.queue.toList = [])
      (hp : c.queue.producer = false) :
      Does c (.look i last) ({ c with waiting := c.waiting.erase i }.answer (.poll i .drained))
  | starved (i : Nat) (hi : i ∈ c.waiting) (hq : c.queue.toList = [])
      (hp : c.queue.producer = true) :
      Does c (.look i true) ({ c with waiting := c.waiting.erase i }.answer (.poll i .empty))
  | waited (i : Nat) (hq : c.queue.toList = []) (hp : c.queue.producer = true) :
      Does c (.look i false) c
  | abandon (i : Nat) : Does c (.abandon i) { c with waiting := c.waiting.erase i }
  | clone (i companion : Nat) (hi : i ∈ c.ends) :
      Does c (.clone i companion)
        { c with queue := c.queue.addConsumer, ends := companion :: c.ends }
  | drop (i : Nat) (hi : i ∈ c.ends) (hw : i ∉ c.waiting) :
      Does c (.drop i) { c with queue := c.queue.dropConsumer, ends := c.ends.erase i }
  | dropProducer (hh : c.held = none) :
      Does c .dropProducer { c with queue := c.queue.dropProducer }

theorem does_offer {a : α} (ha : c.held = some a) : Does c .press (c.offer a) := by
  rcases hput : c.queue.put a with ⟨r, queue⟩
  cases r with
  | done =>
    have hs := Queue.size_lt_of_put_done hput
    obtain ⟨hc, rfl⟩ := Queue.put_done hput
    simp only [offer, hput]
    exact .placed a ha hc hs
  | full =>
    simp only [offer, hput]
    exact .pressed a ha
  | closed =>
    obtain ⟨hc, rfl⟩ := Queue.put_closed hput
    simp only [offer, hput]
    exact .refused a ha hc

theorem does_glance {i : Nat} (last : Bool) (hi : i ∈ c.waiting) :
    Does c (.look i last) (c.glance i last) := by
  rcases hpoll : c.queue.poll with ⟨r, queue⟩
  cases r with
  | item a =>
    simp only [glance, hpoll]
    exact .took i last a queue hi hpoll
  | drained =>
    obtain ⟨hq, hp⟩ := Queue.poll_drained hpoll
    obtain rfl := Queue.eq_of_poll hpoll nofun
    simp only [glance, hpoll]
    exact .drained i last hi hq hp
  | empty =>
    obtain ⟨hq, hp⟩ := Queue.poll_empty hpoll
    obtain rfl := Queue.eq_of_poll hpoll nofun
    cases last with
    | false =>
      simp only [glance, hpoll]
      exact .waited i hq hp
    | true =>
      simp only [glance, hpoll]
      exact .starved i hi hq hp

theorem does_of_step (h : c.step m = some c') : Does c m c' := by
  cases m with
  | put a =>
    obtain ⟨hcond, hc'⟩ := Option.ite_none_right_eq_some.mp h
    rw [← Option.some.inj hc']
    exact .put a hcond.1
  | press =>
    obtain ⟨a, ha, rfl⟩ := Option.map_eq_some_iff.mp h
    exact does_offer ha
  | withdraw =>
    obtain ⟨a, ha, rfl⟩ := Option.map_eq_some_iff.mp h
    exact .withdrawn a ha
  | poll i =>
    obtain ⟨hcond, hc'⟩ := Option.ite_none_right_eq_some.mp h
    rw [← Option.some.inj hc']
    exact .poll i hcond
  | look i last =>
    obtain ⟨hi, hc'⟩ := Option.ite_none_right_eq_some.mp h
    rw [← Option.some.inj hc']
    exact does_glance last hi
  | abandon i =>
    obtain ⟨-, hc'⟩ := Option.ite_none_right_eq_some.mp h
    rw [← Option.some.inj hc']
    exact .abandon i
  | clone i companion =>
    obtain ⟨hcond, hc'⟩ := Option.ite_none_right_eq_some.mp h
    rw [← Option.some.inj hc']
    exact .clone i companion hcond.1
  | drop i =>
    obtain ⟨hcond, hc'⟩ := Option.ite_none_right_eq_some.mp h
    rw [← Option.some.inj hc']
    exact .drop i hcond.1 hcond.2
  | dropProducer =>
    obtain ⟨hcond, hc'⟩ := Option.ite_none_right_eq_some.mp h
    rw [← Option.some.inj hc']
    exact .dropProducer (by simpa using hcond.2)

/-- A move gives at most one answer, and the answers that were given before stay. -/
theorem answers_step (h : c.step m = some c') :
    c'.answers = c.answers ∨ ∃ r, c'.answers = c.answers ++ [r] := by
  cases does_of_step h with
  | put | pressed | poll | waited | abandon | clone | drop | dropProducer => exact .inl rfl
  | placed | refused | withdrawn | took | drained | starved => exact .inr ⟨_, rfl⟩

/-! ### The invariant -/

/-- What every move keeps: the bound of the queue, what went in and what came out, and who holds an
end of the queue. -/
structure Sound (capacity : Nat) (c : QueueCourse α) : Prop where
  capacity_eq : c.queue.capacity = max capacity 1
  size_le : c.queue.size ≤ c.queue.capacity
  /-- What was taken, and what is left, is what went in. -/
  content : c.taken ++ c.queue.toList = c.placed
  consumers_eq : c.queue.consumers = c.ends.length
  waiting : ∀ i ∈ c.waiting, i ∈ c.ends
  held : c.held.isSome → c.queue.producer = true

theorem sound_start (capacity : Nat) : (start capacity : QueueCourse α).Sound capacity where
  capacity_eq := rfl
  size_le := Nat.zero_le _
  content := rfl
  consumers_eq := rfl
  waiting := nofun
  held := nofun

/-- **Every move keeps the bound and the content of a queue.** -/
theorem sound_step {capacity : Nat} (h : c.step m = some c') (hc : c.Sound capacity) :
    c'.Sound capacity := by
  have herase : ∀ i, ∀ j ∈ c.waiting.erase i, j ∈ c.ends := fun i j hj =>
    hc.waiting j (List.mem_of_mem_erase hj)
  -- a call that has put nothing in and taken nothing out
  have hidle : ∀ r : QueueAnswer α, r.placed? = none → r.taken? = none →
      (c.answer r).taken ++ c.queue.toList = (c.answer r).placed := by
    intro r hp ht
    rw [taken_answer, placed_answer, hp, ht]
    simpa using hc.content
  cases does_of_step h with
  | put a hp => exact { hc with held := fun _ => hp }
  | pressed | waited => exact hc
  | placed a ha hcons hs =>
    refine { hc with size_le := hs, content := ?_, held := nofun }
    rw [taken_answer, placed_answer]
    show c.taken ++ [] ++ (c.queue.push a).toList = c.placed ++ [a]
    rw [List.append_nil, Queue.toList_push, ← List.append_assoc, hc.content]
  | refused a ha hcons => exact { hc with content := hidle _ rfl rfl, held := nofun }
  | withdrawn a ha => exact { hc with content := hidle _ rfl rfl, held := nofun }
  | poll i hi => exact { hc with waiting := List.forall_mem_cons.mpr ⟨hi, hc.waiting⟩ }
  | took i last a queue hi hq =>
    obtain ⟨hcontent, hprod, hcons⟩ := Queue.poll_item hq
    have hcap := Queue.capacity_poll_item hq
    have hsize : c.queue.size = queue.size + 1 := by
      rw [← Queue.length_toList, hcontent, List.length_cons, Queue.length_toList]
    have hle := hc.size_le
    refine { capacity_eq := hcap.trans hc.capacity_eq, size_le := ?_, content := ?_,
             consumers_eq := hcons.trans hc.consumers_eq, waiting := herase i,
             held := fun hh => hprod.trans (hc.held hh) }
    · show queue.size ≤ queue.capacity
      omega
    · rw [taken_answer, placed_answer]
      show c.taken ++ [a] ++ queue.toList = c.placed ++ []
      rw [List.append_assoc, List.append_nil, List.singleton_append, ← hcontent, hc.content]
  | drained i last hi hq hp =>
    exact { hc with content := hidle _ rfl rfl, waiting := herase i }
  | starved i hi hq hp => exact { hc with content := hidle _ rfl rfl, waiting := herase i }
  | abandon i => exact { hc with waiting := herase i }
  | clone i companion hi =>
    exact { hc with
      consumers_eq := congrArg (· + 1) hc.consumers_eq
      waiting := fun j hj => .tail _ (hc.waiting j hj) }
  | drop i hi hw =>
    refine { hc with consumers_eq := ?_, waiting := fun j hj => ?_ }
    · show c.queue.consumers - 1 = (c.ends.erase i).length
      rw [List.length_erase_of_mem hi, hc.consumers_eq]
    · have hne : j ≠ i := fun heq => hw (heq ▸ hj)
      exact (List.mem_erase_of_ne hne).mpr (hc.waiting j hj)
  | dropProducer hh => exact { hc with held := by simp [hh] }

theorem sound_steps {capacity : Nat} (h : c.steps ms = some c') (hc : c.Sound capacity) :
    c'.Sound capacity :=
  Moves.invariant (fun _ _ _ hs hstep => sound_step hstep hs) h hc

/-! ### What never changes any more -/

/-- Nobody is left to take anything, and so much was taken. -/
structure Deserted (taken : List α) (c : QueueCourse α) : Prop where
  ends : c.ends = []
  waiting : c.waiting = []
  taken_eq : c.taken = taken

/-- **Where nobody is left to take anything, nothing is ever taken**: consumers come from consumers. -/
theorem deserted_step {taken : List α} (h : c.step m = some c') (hc : c.Deserted taken) :
    c'.Deserted taken := by
  have hends : ∀ i, i ∉ c.ends := by simp [hc.ends]
  have hwaiting : ∀ i, i ∉ c.waiting := by simp [hc.waiting]
  cases does_of_step h with
  | put | pressed | waited | dropProducer => exact { hc with }
  | placed | refused | withdrawn =>
    exact { hc with taken_eq := by rw [taken_answer]; exact (List.append_nil _).trans hc.taken_eq }
  | poll i hi | clone i _ hi | drop i hi _ => exact absurd hi (hends i)
  | took i _ _ _ hi | drained i _ hi | starved i hi => exact absurd hi (hwaiting i)
  | abandon i => exact { hc with waiting := by simp [hc.waiting] }

theorem deserted_steps {taken : List α} (h : c.steps ms = some c') (hc : c.Deserted taken) :
    c'.Deserted taken :=
  Moves.invariant (fun _ _ _ hs hstep => deserted_step hstep hs) h hc

/-- Nothing is in the queue and nothing will come. -/
structure Dry (c : QueueCourse α) : Prop where
  producer : c.queue.producer = false
  content : c.queue.toList = []
  held : c.held = none

/-- **A queue that is drained stays so.** -/
theorem dry_step (h : c.step m = some c') (hc : c.Dry) : c'.Dry := by
  have hprod := hc.producer
  cases does_of_step h with
  | put a hp | starved _ _ _ hp => simp [hprod] at hp
  | placed a ha | refused a ha | withdrawn a ha => simp [hc.held] at ha
  | pressed | waited => exact hc
  | took i last a queue hi hq =>
    have hcontent := (Queue.poll_item hq).1
    simp [hc.content] at hcontent
  | poll | drained | abandon | clone | drop => exact { hc with }
  | dropProducer => exact { hc with producer := rfl }

theorem dry_steps (h : c.steps ms = some c') (hc : c.Dry) : c'.Dry :=
  Moves.invariant (fun _ _ _ hs hstep => dry_step hstep hs) h hc

/-! ### The answers -/

/-- The answers that a queue may give. A call is answered at most once and for good, which is what
`gives` says; so each other field speaks of the move at which an answer is given. -/
structure Lawful (capacity : Nat) (c : QueueCourse α) : Prop where
  within : c.queue.toList.length ≤ max capacity 1
  /-- What polls have returned, in the order taken, and what is still queued, is what was put in. -/
  delivered : c.taken ++ c.queue.toList = c.placed
  gives : ∀ m c', c.step m = some c' →
    c'.answers = c.answers ∨ ∃ r, c'.answers = c.answers ++ [r]
  /-- A put fails only when no consumer is left, and then its item has not gone in and nothing is
  ever taken again. -/
  refused : ∀ m c' a, c.step m = some c' → c'.answers = c.answers ++ [.put a .closed] →
    c.ends = [] ∧ c'.queue = c.queue ∧ c'.placed = c.placed ∧
      ∀ ms d, c'.steps ms = some d → d.taken = c.taken
  /-- A poll learns that nothing will come exactly when the producer has gone and nothing is there. -/
  drained_iff : ∀ i last c', c.step (.look i last) = some c' →
    (c'.answers = c.answers ++ [.poll i .drained] ↔
      c.queue.producer = false ∧ c.queue.toList = [])
  /-- From then on every poll learns the same. -/
  drained_ever : ∀ m c' i, c.step m = some c' → c'.answers = c.answers ++ [.poll i .drained] →
    ∀ ms d, c'.steps ms = some d → ∀ j last d', d.step (.look j last) = some d' →
      d'.answers = d.answers ++ [.poll j .drained]
  /-- A poll runs out only while nothing is there and more may come, and it removes nothing. -/
  empty : ∀ m c' i, c.step m = some c' → c'.answers = c.answers ++ [.poll i .empty] →
    c.queue.toList = [] ∧ c.queue.producer = true ∧ c'.queue = c.queue

/-- What is true of a queue when a call has an answer, where the answer brings no item. -/
def Grounds (c : QueueCourse α) : QueueAnswer α → Prop
  | .put _ .closed => c.queue.consumers = 0
  | .poll _ .drained => c.queue.producer = false ∧ c.queue.toList = []
  | .poll _ .empty => c.queue.producer = true ∧ c.queue.toList = []
  | _ => True

/-- **Every answer has its grounds**, and only an item that goes in or out changes the queue. -/
theorem grounds_of_answer {r : QueueAnswer α} (h : c.step m = some c')
    (hr : c'.answers = c.answers ++ [r]) :
    c.Grounds r ∧ (r.placed? = none → r.taken? = none → c'.queue = c.queue) := by
  have honly : ∀ r', c'.answers = c.answers ++ [r'] → r' = r := fun _ hr' =>
    List.singleton_inj.mp (List.append_cancel_left (hr'.symm.trans hr))
  cases does_of_step h with
  | placed => rw [← honly _ rfl]; exact ⟨trivial, nofun⟩
  | refused a ha hcons => rw [← honly _ rfl]; exact ⟨hcons, fun _ _ => rfl⟩
  | withdrawn => rw [← honly _ rfl]; exact ⟨trivial, fun _ _ => rfl⟩
  | took => rw [← honly _ rfl]; exact ⟨trivial, fun _ => nofun⟩
  | drained i last hi hq hp => rw [← honly _ rfl]; exact ⟨⟨hp, hq⟩, fun _ _ => rfl⟩
  | starved i hi hq hp => rw [← honly _ rfl]; exact ⟨⟨hp, hq⟩, fun _ _ => rfl⟩
  | put | pressed | poll | waited | abandon | clone | drop | dropProducer => simp at hr

theorem placed_of_answer {r : QueueAnswer α} (hr : c'.answers = c.answers ++ [r]) :
    c'.placed = c.placed ++ r.placed?.toList := by
  rw [← placed_answer, placed, hr]
  rfl

/-- A look at a queue that is drained learns it. -/
theorem Dry.answers_look (hc : c.Dry) {i : Nat} {last : Bool}
    (h : c.step (.look i last) = some c') : c'.answers = c.answers ++ [.poll i .drained] := by
  have hprod := hc.producer
  cases does_of_step h with
  | drained => rfl
  | took i last a queue hi hq =>
    have hcontent := (Queue.poll_item hq).1
    simp [hc.content] at hcontent
  | starved _ _ _ hp | waited _ _ hp => simp [hprod] at hp

theorem Sound.deserted {capacity : Nat} (hc : c.Sound capacity) (h : c.queue.consumers = 0) :
    c.Deserted c.taken := by
  have hends : c.ends = [] := by rw [← List.length_eq_zero_iff, ← hc.consumers_eq, h]
  refine ⟨hends, List.eq_nil_iff_forall_not_mem.mpr fun i hi => ?_, rfl⟩
  simpa [hends] using hc.waiting i hi

theorem Sound.dry {capacity : Nat} (hc : c.Sound capacity) (hp : c.queue.producer = false)
    (hq : c.queue.toList = []) : c.Dry := by
  refine ⟨hp, hq, ?_⟩
  cases hh : c.held with
  | none => rfl
  | some a =>
    have hprod := hc.held (by simp [hh])
    simp [hp] at hprod

theorem Sound.lawful {capacity : Nat} (hc : c.Sound capacity) : c.Lawful capacity where
  within := by
    rw [Queue.length_toList, ← hc.capacity_eq]
    exact hc.size_le
  delivered := hc.content
  gives := fun _ _ => answers_step
  refused := by
    intro m c' a h hr
    obtain ⟨hcons, hqueue⟩ := grounds_of_answer h hr
    have hnone := hc.deserted hcons
    refine ⟨hnone.ends, hqueue rfl rfl, ?_, fun ms d hd => ?_⟩
    · exact (placed_of_answer hr).trans (List.append_nil _)
    · exact (deserted_steps hd (deserted_step h hnone)).taken_eq
  drained_iff := fun i last c' h =>
    ⟨fun hr => (grounds_of_answer h hr).1, fun ⟨hp, hq⟩ => (hc.dry hp hq).answers_look h⟩
  drained_ever := by
    intro m c' i h hr ms d hd j last d' hlook
    obtain ⟨hp, hq⟩ := (grounds_of_answer h hr).1
    have hdry := dry_step h (hc.dry hp hq)
    exact (dry_steps hd hdry).answers_look hlook
  empty := by
    intro m c' i h hr
    obtain ⟨⟨hp, hq⟩, hqueue⟩ := grounds_of_answer h hr
    exact ⟨hq, hp, hqueue rfl rfl⟩

/-- **The answers of every course are lawful**, however many consumers there are and in whatever
order things happen. -/
theorem lawful_of_steps (capacity : Nat) (h : (start capacity).steps ms = some c) :
    c.Lawful capacity :=
  (sound_steps h (sound_start capacity)).lawful

/-! ### Two consumers at a queue for one item -/

/-- The queue has room for one item, so the second put waits until a companion of consumer zero has
taken the first item. Then the producer goes away, consumer zero takes the second item, and the
companion learns that nothing will come. -/
def relay : List (QueueMove Nat) :=
  [.put 7, .press, .put 8, .press, .clone 0 1, .poll 1, .look 1 false, .press, .dropProducer,
    .poll 0, .look 0 true, .poll 1]

/-- The queue before the companion looks again. -/
def relayed : QueueCourse Nat := ((start 0).steps relay).get (by decide)

theorem steps_relay : (start 0).steps relay = some relayed := (Option.some_get _).symm

/-- Both items were taken in order, and the companion learns that there are no more. -/
theorem lawful_of_relay : (start 0).steps relay = some relayed ∧
    relayed.taken ++ relayed.queue.toList = [7, 8] ∧
    ∃ c, relayed.step (.look 1 false) = some c ∧
      c.answers = relayed.answers ++ [.poll 1 .drained] := by
  have hlawful := lawful_of_steps 0 steps_relay
  have hsome : (relayed.step (.look 1 false)).isSome := by decide
  obtain ⟨c, hc⟩ := Option.isSome_iff_exists.mp hsome
  have hplaced : relayed.placed = [7, 8] := by decide
  refine ⟨steps_relay, hlawful.delivered.trans hplaced, c, hc, ?_⟩
  exact (hlawful.drained_iff 1 false c hc).mpr ⟨by decide, by decide⟩

end QueueCourse

end LoadRig
