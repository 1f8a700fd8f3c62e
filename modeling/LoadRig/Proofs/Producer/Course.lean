import LoadRig.Proofs.Moves
import LoadRig.Proofs.Producer
/-!
# The course of a producer

A producer makes messages one after the other and puts them into a queue, and any number of consumers
take them from there. Whose turn it is, is left open: consumers look, get companions and go away in
whatever order, and the moments at which the producer has its turns are any moments.

The generator of the producer does not know of any of this. What was put in, what waits in the hand
of the producer and what nobody was left to take are, in this order and apart from the moments at
which the messages were made, a beginning of what the generator makes when it is asked again and
again. So neither the capacity of the queue nor the turns of the consumers show in the content.

## Main definitions

* `LoadRig.WorkItem.stamped` — a message as if it had been made at another moment.
* `LoadRig.MessageGenerator.Continues` — a generator goes on where some messages end.
* `LoadRig.ProducerCourse`, `LoadRig.ProducerMove`, `LoadRig.ProducerCourse.steps`
* `LoadRig.ProducerCourse.Faithful` — what is true of a producer at any time of its course.

## Main results

* `LoadRig.MessageGenerator.Continues.next` — one more message.
* `LoadRig.ProducerCourse.does_of_step` — what a move can make of a course.
* `LoadRig.ProducerCourse.sound_step`, `LoadRig.ProducerCourse.Sound.faithful` — the invariant, and
  what follows from it.
* `LoadRig.ProducerCourse.content_eq_of_steps` — the content of two courses of one generator.
-/

namespace LoadRig

open LoadRig.Random

/-- A message as if it had been made at another moment. -/
def WorkItem.stamped (t : Time.Instant) (w : WorkItem) : WorkItem := { w with createdAt := t }

/-! ### The stream of a generator -/

namespace MessageGenerator

variable {σ : Type} [WordSource σ] {g rest : MessageGenerator σ} {made : List WorkItem}

/-- The moment at which a message is made is written into it and changes nothing else. -/
theorem next_stamped (g : MessageGenerator σ) (now t : Time.Instant) :
    g.next t = ((g.next now).1.stamped t, (g.next now).2) := by
  obtain ⟨user, place, room, roll, s₁, s₂, s₃, s₄, -, -, -, -, hnext⟩ := g.exists_below
  rw [hnext t, hnext now]
  rfl

theorem take_succ (t : Time.Instant) (n : Nat) (g : MessageGenerator σ) (now : Time.Instant) :
    take t (n + 1) g = (g.next now).1.stamped t :: take t n (g.next now).2 := by
  rw [take, g.next_stamped now t]

@[simp] theorem length_take (t : Time.Instant) (n : Nat) (g : MessageGenerator σ) :
    (take t n g).length = n := by
  induction n generalizing g with
  | zero => rfl
  | succ n ih => rw [take_succ t n g t, List.length_cons, ih]

/-- The first messages are the beginning of those that come when more are asked for. -/
theorem take_take {m n : Nat} (h : m ≤ n) (t : Time.Instant) (g : MessageGenerator σ) :
    (take t n g).take m = take t m g := by
  induction n generalizing m g with
  | zero => obtain rfl := Nat.le_zero.mp h; rfl
  | succ n ih =>
    cases m with
    | zero => rfl
    | succ m => rw [take_succ t n g t, take_succ t m g t, List.take_succ_cons, ih (by omega)]

/-- A generator goes on where some messages end: these, and whatever it makes from then on, are what
`g` makes when it is asked again and again, apart from the moments. -/
def Continues (g : MessageGenerator σ) (made : List WorkItem) (rest : MessageGenerator σ) : Prop :=
  ∀ t k, made.map (·.stamped t) ++ take t k rest = take t (made.length + k) g

theorem continues_nil (g : MessageGenerator σ) : Continues g [] g := fun t k => by simp

/-- **One more message.** -/
theorem Continues.next (h : Continues g made rest) (now : Time.Instant) :
    Continues g (made ++ [(rest.next now).1]) (rest.next now).2 := by
  intro t k
  have hnext := h t (k + 1)
  rw [take_succ t k rest now] at hnext
  simpa [Nat.add_assoc, Nat.add_comm 1 k] using hnext

/-- The messages that a generator has behind it are the first ones of the stream. -/
theorem Continues.begins {more : List WorkItem} (h : Continues g (made ++ more) rest)
    (t : Time.Instant) : made.map (·.stamped t) = take t made.length g := by
  have hall := h t 0
  calc made.map (·.stamped t)
      = ((made ++ more).map (·.stamped t) ++ take t 0 rest).take made.length := by
        rw [List.map_append, List.append_assoc]
        exact (List.take_left' (List.length_map _)).symm
    _ = (take t ((made ++ more).length + 0) g).take made.length := by rw [hall]
    _ = take t made.length g := take_take (by simp) t g

end MessageGenerator

namespace Producer

variable {σ : Type} [WordSource σ] {now : Time.Instant} {p : Producer σ} {q q' : Queue WorkItem}

/-- What a producer loses when its turn comes: the next message, if nobody is left to take it. -/
def loses (now : Time.Instant) (p : Producer σ) (q : Queue WorkItem) : List WorkItem :=
  if p.finished ∨ p.produced = p.requested then []
  else
    match q.put (p.prepare now).1 with
    | (.closed, _) => [(p.prepare now).1]
    | _ => []

theorem loses_of_put_ne_closed {r : PutResult} (hr : r ≠ .closed)
    (h : q.put (p.prepare now).1 = (r, q')) : p.loses now q = [] := by
  rw [loses]
  split
  · rfl
  · rw [h]
    cases r with
    | closed => exact absurd rfl hr
    | full | done => rfl

theorem loses_of_put_closed (hf : p.finished = false) (hr : p.produced ≠ p.requested)
    (h : q.put (p.prepare now).1 = (.closed, q')) : p.loses now q = [(p.prepare now).1] := by
  simp [loses, hf, hr, h]

/-- A producer that takes a message into its hand takes the one that its generator makes next. -/
theorem continues_prepare {g : MessageGenerator σ} {made : List WorkItem}
    (h : g.Continues (made ++ p.held.toList) p.generator) (now : Time.Instant) :
    g.Continues (made ++ [(p.prepare now).1]) (p.prepare now).2.generator ∧
      (p.prepare now).2.held = some (p.prepare now).1 := by
  cases hp : p.held with
  | some item =>
    have hprep : p.prepare now = (item, p) := by rw [prepare, hp]
    rw [hprep]
    exact ⟨by simpa [hp] using h, hp⟩
  | none =>
    rw [hp, Option.toList_none, List.append_nil] at h
    have hcontinues := h.next now
    rcases hnext : p.generator.next now with ⟨item, generator⟩
    have hprep : p.prepare now = (item, { p with generator, held := some item }) := by
      rw [prepare, hp]
      -- the next message is not to be computed here
      generalize p.generator.next now = made at hnext
      rw [hnext]
    rw [hnext] at hcontinues
    rw [hprep]
    exact ⟨hcontinues, rfl⟩

end Producer

/-! ### Courses -/

/-- A producer, its queue and the consumers that are left, with what became of the messages. -/
structure ProducerCourse (σ : Type) where
  producer : Producer σ
  queue : Queue WorkItem
  /-- The consumers that are left. -/
  ends : List Nat
  /-- The messages that were put in. -/
  placed : List WorkItem := []
  /-- The messages that could not be put in because nobody was left to take them. -/
  lost : List WorkItem := []
  /-- The messages that consumers took. -/
  taken : List WorkItem := []

/-- What can happen between a producer and the consumers. -/
inductive ProducerMove where
  /-- The producer has its turn at a moment. -/
  | produce (now : Time.Instant)
  /-- A consumer looks at the queue and takes what it finds. -/
  | look (consumer : Nat)
  /-- A consumer gets a companion. -/
  | clone (consumer companion : Nat)
  | drop (consumer : Nat)

/-- Whether the producer has its turn. -/
def ProducerMove.isTurn : ProducerMove → Bool
  | .produce _ => true
  | _ => false

namespace ProducerCourse

variable {σ : Type} [WordSource σ]

/-- A producer at a new queue, and consumer zero. -/
def start (generator : MessageGenerator σ) (requested capacity : Nat) : ProducerCourse σ :=
  { producer := .start generator requested, queue := .bounded capacity, ends := [0] }

/-- The course after a turn of the producer that came out as given. -/
def produced (c : ProducerCourse σ) (now : Time.Instant) (y : Producer σ × Queue WorkItem) :
    ProducerCourse σ :=
  { c with
    producer := y.1
    queue := y.2
    placed := c.placed ++ c.producer.puts now c.queue
    lost := c.lost ++ c.producer.loses now c.queue }

/-- A consumer looks at the queue. -/
def glance (c : ProducerCourse σ) : ProducerCourse σ :=
  match c.queue.poll with
  | (.item a, queue) => { c with queue, taken := c.taken ++ [a] }
  | _ => c

/-- What a move makes of a course; nothing if the move cannot happen. -/
def step (c : ProducerCourse σ) : ProducerMove → Option (ProducerCourse σ)
  | .produce now => (c.producer.step now c.queue).map (c.produced now)
  | .look i => if i ∈ c.ends then some c.glance else none
  | .clone i companion =>
    if i ∈ c.ends ∧ companion ∉ c.ends then
      some { c with queue := c.queue.addConsumer, ends := companion :: c.ends }
    else none
  | .drop i =>
    if i ∈ c.ends then some { c with queue := c.queue.dropConsumer, ends := c.ends.erase i }
    else none

/-- What a list of moves makes of a course. -/
def steps (c : ProducerCourse σ) (ms : List ProducerMove) : Option (ProducerCourse σ) :=
  Moves.follow step c ms

variable {c c' : ProducerCourse σ} {m : ProducerMove} {ms : List ProducerMove}

/-- What a move can make of a course. -/
inductive Does (c : ProducerCourse σ) : ProducerMove → ProducerCourse σ → Prop
  | ended (now : Time.Instant) (hf : c.producer.finished = false)
      (hr : c.producer.produced = c.producer.requested) :
      Does c (.produce now)
        { c with producer := { c.producer with finished := true }, queue := c.queue.dropProducer }
  | placed (now : Time.Instant) (hf : c.producer.finished = false)
      (hr : c.producer.produced ≠ c.producer.requested) (hs : c.queue.size < c.queue.capacity) :
      Does c (.produce now)
        { c with
          producer := { (c.producer.prepare now).2 with
            held := none, produced := c.producer.produced + 1 }
          queue := c.queue.push (c.producer.prepare now).1
          placed := c.placed ++ [(c.producer.prepare now).1] }
  | deserted (now : Time.Instant) (hf : c.producer.finished = false)
      (hr : c.producer.produced ≠ c.producer.requested) (hc : c.queue.consumers = 0) :
      Does c (.produce now)
        { c with
          producer := { (c.producer.prepare now).2 with held := none, finished := true }
          queue := c.queue.dropProducer
          lost := c.lost ++ [(c.producer.prepare now).1] }
  | held (now : Time.Instant) (hf : c.producer.finished = false)
      (hr : c.producer.produced ≠ c.producer.requested) :
      Does c (.produce now) { c with producer := (c.producer.prepare now).2 }
  | took (i : Nat) (a : WorkItem) (queue : Queue WorkItem) (hi : i ∈ c.ends)
      (hq : c.queue.poll = (.item a, queue)) :
      Does c (.look i) { c with queue, taken := c.taken ++ [a] }
  | looked (i : Nat) : Does c (.look i) c
  | clone (i companion : Nat) (hi : i ∈ c.ends) :
      Does c (.clone i companion)
        { c with queue := c.queue.addConsumer, ends := companion :: c.ends }
  | drop (i : Nat) (hi : i ∈ c.ends) :
      Does c (.drop i) { c with queue := c.queue.dropConsumer, ends := c.ends.erase i }

theorem does_produced {now : Time.Instant} {y : Producer σ × Queue WorkItem}
    (h : c.producer.step now c.queue = some y) : Does c (.produce now) (c.produced now y) := by
  obtain ⟨hf, hm⟩ := Producer.does_of_step h
  cases hm with
  | ended hr =>
    have hputs : c.producer.puts now c.queue = [] := by simp [Producer.puts, hr]
    have hloses : c.producer.loses now c.queue = [] := by simp [Producer.loses, hr]
    simp only [produced, hputs, hloses, List.append_nil]
    exact .ended now hf hr
  | placed hr q' hq =>
    rw [produced, Producer.puts_of_put_done hf hr hq,
      Producer.loses_of_put_ne_closed (by simp) hq, List.append_nil]
    have hs := Queue.size_lt_of_put_done hq
    obtain ⟨-, rfl⟩ := Queue.put_done hq
    exact .placed now hf hr hs
  | deserted hr q' hq =>
    rw [produced, Producer.puts_of_put_ne_done (by simp) hq,
      Producer.loses_of_put_closed hf hr hq, List.append_nil]
    obtain ⟨hc, rfl⟩ := Queue.put_closed hq
    exact .deserted now hf hr hc
  | held hr q' hq =>
    simp only [produced, Producer.puts_of_put_ne_done (by simp) hq,
      Producer.loses_of_put_ne_closed (by simp) hq, List.append_nil]
    exact .held now hf hr

theorem does_glance {i : Nat} (hi : i ∈ c.ends) : Does c (.look i) c.glance := by
  rcases hq : c.queue.poll with ⟨r, queue⟩
  cases r with
  | item a =>
    simp only [glance, hq]
    exact .took i a queue hi hq
  | empty | drained =>
    simp only [glance, hq]
    exact .looked i

theorem does_of_step (h : c.step m = some c') : Does c m c' := by
  cases m with
  | produce now =>
    obtain ⟨y, hy, rfl⟩ := Option.map_eq_some_iff.mp h
    exact does_produced hy
  | look i =>
    obtain ⟨hi, hc'⟩ := Option.ite_none_right_eq_some.mp h
    rw [← Option.some.inj hc']
    exact does_glance hi
  | clone i companion =>
    obtain ⟨hi, hc'⟩ := Option.ite_none_right_eq_some.mp h
    rw [← Option.some.inj hc']
    exact .clone i companion hi.1
  | drop i =>
    obtain ⟨hi, hc'⟩ := Option.ite_none_right_eq_some.mp h
    rw [← Option.some.inj hc']
    exact .drop i hi

/-! ### The invariant -/

/-- What every move keeps. -/
structure Sound (generator : MessageGenerator σ) (requested capacity : Nat)
    (c : ProducerCourse σ) : Prop where
  fits : c.producer.Fits c.queue
  requested_eq : c.producer.requested = requested
  capacity_eq : c.queue.capacity = max capacity 1
  size_le : c.queue.size ≤ c.queue.capacity
  consumers_eq : c.queue.consumers = c.ends.length
  content : c.taken ++ c.queue.toList = c.placed
  counted : c.placed.length = c.producer.produced
  /-- No message is left out, made twice or changed. -/
  stream : generator.Continues (c.placed ++ c.lost ++ c.producer.held.toList) c.producer.generator
  /-- While the producer is under way nothing is lost, and it ends early for one lost message. -/
  lost_eq : c.lost.length =
    (c.producer.finished && decide (c.producer.produced < requested)).toNat

theorem sound_start (generator : MessageGenerator σ) (requested capacity : Nat) :
    (start generator requested capacity).Sound generator requested capacity where
  fits := Producer.fits_start generator requested rfl
  requested_eq := rfl
  capacity_eq := rfl
  size_le := Nat.zero_le _
  consumers_eq := rfl
  content := rfl
  counted := rfl
  stream := MessageGenerator.continues_nil generator
  lost_eq := rfl

variable {generator : MessageGenerator σ} {requested capacity : Nat}

/-- **Every move keeps the content and the counts.** A message that the producer takes into its hand
is the next one of the stream, and it stays there until it is put in or lost. -/
theorem sound_step (h : c.step m = some c') (hc : c.Sound generator requested capacity) :
    c'.Sound generator requested capacity := by
  have hreq := hc.requested_eq
  have hcounts := c.producer.counts_prepare
  have hwithin : c.producer.produced ≤ requested := hreq ▸ hc.fits.within
  -- after a turn the count of the producer fits, whatever came of it
  have hfits : (∃ now, m = .produce now) → c'.producer.Fits c'.queue := by
    rintro ⟨now, rfl⟩
    obtain ⟨y, hy, rfl⟩ := Option.map_eq_some_iff.mp h
    exact Producer.fits_step hy hc.fits
  -- a producer that still has its turns has lost nothing
  have hnone : c.producer.finished = false → c.lost = [] := fun hf => by
    have hlost := hc.lost_eq
    rw [hf, Bool.false_and] at hlost
    exact List.length_eq_zero_iff.mp hlost
  have hready : ∀ now, generator.Continues (c.placed ++ c.lost ++ [(c.producer.prepare now).1])
      (c.producer.prepare now).2.generator ∧
      (c.producer.prepare now).2.held = some (c.producer.prepare now).1 :=
    Producer.continues_prepare hc.stream
  cases does_of_step h with
  | ended now hf hr =>
    refine { hc with fits := hfits ⟨now, rfl⟩, lost_eq := ?_ }
    have hrest : ¬ c.producer.produced < requested := by omega
    simp [hnone hf, hrest]
  | placed now hf hr hs =>
    have hlost := hnone hf
    refine { hc with
      fits := hfits ⟨now, rfl⟩, requested_eq := (hcounts now).1.trans hreq, size_le := hs,
      content := ?_, counted := ?_, stream := ?_, lost_eq := ?_ }
    · simp [← hc.content]
    · simp [hc.counted]
    · simpa [hlost] using (hready now).1
    · simp [hlost, (hcounts now).2.2, hf]
  | deserted now hf hr hcons =>
    have hlost := hnone hf
    refine { hc with
      fits := hfits ⟨now, rfl⟩, requested_eq := (hcounts now).1.trans hreq,
      counted := hc.counted.trans (hcounts now).2.1.symm, stream := ?_, lost_eq := ?_ }
    · simpa [hlost] using (hready now).1
    · have hless : c.producer.produced < requested := by omega
      simp [hlost, (hcounts now).2.1, hless]
  | held now hf hr =>
    refine { hc with
      fits := hfits ⟨now, rfl⟩, requested_eq := (hcounts now).1.trans hreq,
      counted := hc.counted.trans (hcounts now).2.1.symm, stream := ?_, lost_eq := ?_ }
    · simpa [(hready now).2] using (hready now).1
    · simp [hnone hf, (hcounts now).2.2, hf]
  | took i a queue hi hq =>
    obtain ⟨hcontent, hprod, hcons⟩ := Queue.poll_item hq
    have hcap := Queue.capacity_poll_item hq
    have hsize : c.queue.size = queue.size + 1 := by
      rw [← Queue.length_toList, hcontent, List.length_cons, Queue.length_toList]
    have hle := hc.size_le
    refine { hc with
      fits := hc.fits.of_sides hprod (Nat.le_of_eq hcons), capacity_eq := hcap.trans hc.capacity_eq,
      size_le := ?_, consumers_eq := hcons.trans hc.consumers_eq, content := ?_ }
    · show queue.size ≤ queue.capacity
      omega
    · show c.taken ++ [a] ++ queue.toList = c.placed
      rw [List.append_assoc, List.singleton_append, ← hcontent, hc.content]
  | looked i => exact hc
  | clone i companion hi =>
    have hpos : 0 < c.queue.consumers := hc.consumers_eq ▸ List.length_pos_of_mem hi
    refine { hc with
      fits := { hc.fits with ended := fun hf => ?_ }
      consumers_eq := congrArg (· + 1) hc.consumers_eq }
    exact .inl ((hc.fits.ended hf).resolve_right (Nat.ne_of_gt hpos))
  | drop i hi =>
    refine { hc with fits := hc.fits.of_sides rfl (Nat.sub_le _ _), consumers_eq := ?_ }
    show c.queue.consumers - 1 = (c.ends.erase i).length
    rw [List.length_erase_of_mem hi, hc.consumers_eq]

theorem sound_steps (h : c.steps ms = some c') (hc : c.Sound generator requested capacity) :
    c'.Sound generator requested capacity :=
  Moves.invariant (fun _ _ _ hs hstep => sound_step hstep hs) h hc

theorem sound_of_steps (h : (start generator requested capacity).steps ms = some c) :
    c.Sound generator requested capacity :=
  sound_steps h (sound_start generator requested capacity)

/-! ### What never changes any more -/

/-- The producer has ended and nobody is left to take anything. -/
structure Over (placed taken : List WorkItem) (report : ProducerReport)
    (c : ProducerCourse σ) : Prop where
  finished : c.producer.finished = true
  ends : c.ends = []
  placed_eq : c.placed = placed
  taken_eq : c.taken = taken
  report_eq : c.producer.report = report

/-- **Where the producer has ended and nobody is left, nothing is put in or taken any more.** -/
theorem over_step {placed taken : List WorkItem} {report : ProducerReport}
    (h : c.step m = some c') (hc : c.Over placed taken report) : c'.Over placed taken report := by
  have hfin := hc.finished
  have hends : ∀ i, i ∉ c.ends := by simp [hc.ends]
  cases does_of_step h with
  | ended _ hf | placed _ hf | deserted _ hf | held _ hf => simp [hfin] at hf
  | took i _ _ hi | clone i _ hi | drop i hi => exact absurd hi (hends i)
  | looked => exact hc

theorem over_steps {placed taken : List WorkItem} {report : ProducerReport}
    (h : c.steps ms = some c') (hc : c.Over placed taken report) : c'.Over placed taken report :=
  Moves.invariant (fun _ _ _ hs hstep => over_step hstep hs) h hc

/-! ### At any time of a course -/

/-- What is true of a producer at any time of its course. -/
structure Faithful (generator : MessageGenerator σ) (requested capacity : Nat)
    (c : ProducerCourse σ) : Prop where
  /-- What was put in is what the generator makes when it is asked so many times. -/
  content : ∀ t, c.placed.map (·.stamped t) = generator.take t c.producer.produced
  /-- What consumers took, and what is still queued, is what was put in. -/
  delivered : c.taken ++ c.queue.toList = c.placed
  within : c.producer.produced ≤ requested
  /-- A producer that has ended with less than was asked for had nobody left, and lost one message. -/
  early : c.producer.finished = true → c.producer.produced < requested →
    c.ends = [] ∧ ∃ item, c.lost = [item]
  /-- A message that is lost is the one after those that were put in. The producer has ended by then
  with less than was asked for, and nothing is put in, counted or taken any more. -/
  lost : ∀ item ∈ c.lost,
    c.producer.finished = true ∧ c.producer.produced < requested ∧ c.ends = [] ∧
    (∀ t, c.placed.map (·.stamped t) ++ [item.stamped t]
      = generator.take t (c.producer.produced + 1)) ∧
    ∀ ms d, c.steps ms = some d →
      d.placed = c.placed ∧ d.taken = c.taken ∧ d.producer.report = c.producer.report
  /-- A producer that has not ended can have a turn, or waits for room at a full queue. -/
  goes_on : ∀ now, c.producer.finished = false →
    (∃ d, c.step (.produce now) = some d) ∨
      (c.ends ≠ [] ∧ c.queue.toList.length = max capacity 1)

/-- A producer that ended early ended because nobody was left. -/
theorem Sound.ends_eq_nil (hc : c.Sound generator requested capacity)
    (hf : c.producer.finished = true) (hless : c.producer.produced < requested) : c.ends = [] := by
  have hreq := hc.requested_eq
  have hcons := (hc.fits.ended hf).resolve_left (by omega)
  rw [← List.length_eq_zero_iff, ← hc.consumers_eq, hcons]

/-- What was lost was lost by a producer that then ended with less than was asked for. -/
theorem Sound.early_of_lost (hc : c.Sound generator requested capacity) {item : WorkItem}
    (hi : item ∈ c.lost) :
    c.lost = [item] ∧ c.producer.finished = true ∧ c.producer.produced < requested := by
  have hpos := List.length_pos_of_mem hi
  have hlen := hc.lost_eq
  have hle := Bool.toNat_le (c.producer.finished && decide (c.producer.produced < requested))
  obtain ⟨a, ha⟩ := List.length_eq_one_iff.mp (by omega : c.lost.length = 1)
  have hflag : (c.producer.finished && decide (c.producer.produced < requested)) = true := by
    rw [← Bool.toNat_eq_one]
    omega
  obtain ⟨hf, hless⟩ := (Bool.and_eq_true _ _).mp hflag
  rw [ha] at hi ⊢
  exact ⟨by rw [List.mem_singleton.mp hi], hf, of_decide_eq_true hless⟩

theorem Sound.faithful (hc : c.Sound generator requested capacity) :
    c.Faithful generator requested capacity where
  content t := by
    rw [← hc.counted]
    have hstream := hc.stream
    rw [List.append_assoc] at hstream
    exact hstream.begins t
  delivered := hc.content
  within := hc.requested_eq ▸ hc.fits.within
  early hf hless := by
    refine ⟨hc.ends_eq_nil hf hless, List.length_eq_one_iff.mp ?_⟩
    simp [hc.lost_eq, hf, hless]
  lost item hi := by
    obtain ⟨hone, hf, hless⟩ := hc.early_of_lost hi
    have hends := hc.ends_eq_nil hf hless
    refine ⟨hf, hless, hends, fun t => ?_, fun ms d hd => ?_⟩
    · have hbegins := hc.stream.begins t
      rw [hone] at hbegins
      simpa [hc.counted] using hbegins
    · have hover := over_steps hd ⟨hf, hends, rfl, rfl, rfl⟩
      exact ⟨hover.placed_eq, hover.taken_eq, hover.report_eq⟩
  goes_on now hf := by
    by_cases hroom : c.queue.consumers = 0 ∨ c.queue.size < c.queue.capacity
    · obtain ⟨y, hy⟩ := Producer.exists_step now hf hroom
      exact .inl ⟨c.produced now y, by rw [step, hy]; rfl⟩
    · obtain ⟨hcons, hsize⟩ := not_or.mp hroom
      have hle := hc.size_le
      refine .inr ⟨fun hnil => hcons (by rw [hc.consumers_eq, hnil]; rfl), ?_⟩
      rw [Queue.length_toList, ← hc.capacity_eq]
      omega

/-- **Neither the capacity of the queue nor the turns show in the content**: of two courses of one
generator, the one that has come less far has put in the beginning of what the other one has. -/
theorem content_eq_of_steps {requested' capacity' : Nat} {ms' : List ProducerMove}
    (h : (start generator requested capacity).steps ms = some c)
    (h' : (start generator requested' capacity').steps ms' = some c')
    (hle : c.producer.produced ≤ c'.producer.produced) (t : Time.Instant) :
    c.placed.map (·.stamped t) = (c'.placed.map (·.stamped t)).take c.producer.produced := by
  rw [(sound_of_steps h).faithful.content, (sound_of_steps h').faithful.content,
    MessageGenerator.take_take hle]

/-! ### How many turns there are -/

/-- A move other than a turn of the producer leaves the producer as it is. -/
theorem producer_step (h : c.step m = some c') (hm : m.isTurn = false) :
    c'.producer = c.producer := by
  cases does_of_step h with
  | ended | placed | deserted | held => cases hm
  | took | looked | clone | drop => rfl

/-- **A producer has at most so many turns**, so it ends wherever it gets them. -/
theorem turns_of_steps (h : (start generator requested capacity).steps ms = some c) :
    ms.countP (·.isTurn) + c.producer.effort ≤ 2 * requested + 3 := by
  refine (Moves.history
    (P := fun ms c => c.Sound generator requested capacity ∧
      ms.countP (·.isTurn) + c.producer.effort ≤ 2 * requested + 3)
    [] (fun ms s m s' hs hstep => ⟨sound_step hstep hs.1, ?_⟩) h
    ⟨sound_start generator requested capacity, by simp [start, Producer.start, Producer.effort]⟩).2
  have hle := hs.2
  rw [List.countP_append, List.countP_singleton]
  cases m with
  | produce now =>
    obtain ⟨y, hy, rfl⟩ := Option.map_eq_some_iff.mp hstep
    have hless : y.1.effort < s.producer.effort := Producer.effort_step hy hs.1.fits
    show List.countP _ _ + 1 + y.1.effort ≤ 2 * requested + 3
    omega
  | look | clone | drop =>
    rw [producer_step hstep rfl]
    exact hle

/-! ### Seeded traffic -/

/-- **Seeded traffic is the stream of its seed**, whatever the capacity of the queue and whoever has
the next turn. -/
theorem faithful_of_seed (rooms pool seed requested capacity : Nat)
    {ms : List ProducerMove} {c : ProducerCourse ChaCha}
    (h : (start (SeededGenerator.ofSeed rooms (.ofSize pool) seed) requested capacity).steps ms
      = some c) :
    c.Faithful (SeededGenerator.ofSeed rooms (.ofSize pool) seed) requested capacity ∧
    ms.countP (·.isTurn) ≤ 2 * requested + 3 ∧
    ∀ requested' capacity' ms' c',
      (start (SeededGenerator.ofSeed rooms (.ofSize pool) seed) requested' capacity').steps ms'
        = some c' →
      c.producer.produced ≤ c'.producer.produced → ∀ t,
        c.placed.map (·.stamped t) = (c'.placed.map (·.stamped t)).take c.producer.produced :=
  ⟨(sound_of_steps h).faithful, Nat.le_of_add_right_le (turns_of_steps h),
    fun _ _ _ _ h' hle t => content_eq_of_steps h h' hle t⟩

/-- The midnight of the first of January 1970. -/
def epoch : Time.Instant := { seconds := 0, nanos := 0 }

/-- Three messages are asked for at a queue for one. The producer puts in the first message and waits
with the second one, which goes in when a companion of consumer zero has taken the first one. Then
both consumers go away, and the producer loses the third message. -/
def forsaken : List ProducerMove :=
  [.produce epoch, .clone 0 1, .produce epoch, .look 1, .produce epoch, .drop 0, .drop 1,
    .produce epoch]

/-- The producer after that, with the generator of seed seven for three rooms and two bodies. -/
def abandoned : ProducerCourse ChaCha :=
  ((start (SeededGenerator.ofSeed 3 (.ofSize 2) 7) 3 1).steps forsaken).get (by decide +kernel)

/-- Two messages were put in, one was taken, and the third one, which is not counted, was lost. -/
theorem faithful_abandoned :
    (start (SeededGenerator.ofSeed 3 (.ofSize 2) 7) 3 1).steps forsaken = some abandoned ∧
    abandoned.taken.length = 1 ∧ abandoned.lost.length = 1 ∧
    ∀ t, abandoned.placed.map (·.stamped t)
      = (SeededGenerator.ofSeed 3 (.ofSize 2) 7).take t 2 := by
  have hsteps : (start (SeededGenerator.ofSeed 3 (.ofSize 2) 7) 3 1).steps forsaken
      = some abandoned := (Option.some_get _).symm
  have hfaithful := (faithful_of_seed 3 2 7 3 1 hsteps).1
  obtain ⟨hproduced, htaken, hlost⟩ : abandoned.producer.produced = 2 ∧
      abandoned.taken.length = 1 ∧ abandoned.lost.length = 1 := by decide +kernel
  refine ⟨hsteps, htaken, hlost, fun t => ?_⟩
  rw [hfaithful.content t, hproduced]

end ProducerCourse

end LoadRig
