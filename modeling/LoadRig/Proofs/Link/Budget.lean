import LoadRig.Proofs.Link.Pieces
import LoadRig.Proofs.Moves
import Mathlib.Data.List.Nodup
/-!
# The budgets of the stand-in

Any number of clients open links to one stand-in and write to the links that they got, in any order.
What they share are its counts, and each call touches these more than once: a handshake takes a
number, is then turned away or spends one of the budget of rejected handshakes, and is counted as a
link only after that; a message is counted as written before it spends one of the budget of dropped
acknowledgements. Between any two of these moves the other clients may make theirs. What a call
waits for besides, a delay or an acknowledgement, leaves the counts and the links as they are, so it
is no move; and the owner of a link does nothing else with it while a message on it is under way.

`MockCourse` is the stand-in together with what has become of the handshakes and the links. Only a
handshake that nothing else turns away spends the budget, and only a message on an open link is
charged for. So the number of accepted handshakes depends on how many there were and not on how they
came between one another, and the same holds of the messages.

The counts are natural numbers here. As long as there are fewer handshakes and fewer messages than a
word of sixty-four bits can count, words hold the same.

## Main definitions

* `LoadRig.MockCourse`, `LoadRig.MockMove`
* `LoadRig.MockCourse.step`, `LoadRig.MockCourse.steps` — what moves make of a course.
* `LoadRig.MockCourse.Tallied` — what is true of a course at every moment.

## Main results

* `LoadRig.MockCourse.sound_step`, `LoadRig.MockCourse.sound_steps` — the invariant.
* `LoadRig.MockCourse.tallied_of_steps` — what is true at every moment.
-/

namespace LoadRig

/-! ### The course -/

/-- The stand-in, and what has become of the handshakes and the links so far. Handshakes go by their
numbers, links by the order in which they were opened, and messages by their links. -/
structure MockCourse where
  service : MockService
  /-- The handshakes that have a number and are not decided yet. -/
  waiting : List Nat := []
  /-- Those that were decided, in that order, and whether they got past. -/
  verdicts : List (Nat × Bool) := []
  /-- Those that got past and are not counted as links yet. -/
  passing : List Nat := []
  /-- Those that ended with a link. -/
  accepted : List Nat := []
  /-- Whether every handshake found no other one under way. -/
  inTurn : Bool := true
  /-- The links, and whether they are open. -/
  links : List Bool := []
  /-- The messages that were written to an open link. -/
  written : List Nat := []
  /-- The messages among them that are not decided yet. -/
  undecided : List Nat := []
  /-- The messages among them that were dropped. -/
  dropped : List Nat := []
  /-- The links that their owners have closed. -/
  closed : List Nat := []

/-- What a client can do. -/
inductive MockMove where
  /-- A handshake arrives and takes a number. -/
  | arrive
  /-- A handshake is decided. -/
  | screen (number : Nat)
  /-- A handshake that got past ends with a link. -/
  | accept (number : Nat)
  /-- A message is sent on a link. -/
  | write (link : Nat)
  /-- It is decided whether the message on a link is dropped. -/
  | charge (link : Nat)
  /-- The owner closes a link. -/
  | close (link : Nat)
deriving DecidableEq, Repr

namespace MockCourse

/-- A stand-in with some settings, before the first handshake. -/
def start (m : MockService) : MockCourse :=
  { service := { m with handshakes := 0, opened := 0, sends := 0 } }

/-- What a move makes of a course; nothing if the move cannot happen. A message on a closed link is
refused, and that is all. -/
def step (c : MockCourse) : MockMove → Option MockCourse
  | .arrive =>
    let (number, service) := c.service.takeNumber
    some { c with
      service
      waiting := number :: c.waiting
      inTurn := c.inTurn && c.waiting.isEmpty && c.passing.isEmpty }
  | .screen number =>
    if number ∈ c.waiting then
      let (past, service) := c.service.screen number
      some { c with
        service
        waiting := c.waiting.erase number
        verdicts := c.verdicts ++ [(number, past)]
        passing := if past then number :: c.passing else c.passing }
    else none
  | .accept number =>
    if number ∈ c.passing then
      some { c with
        service := c.service.accept
        passing := c.passing.erase number
        accepted := c.accepted ++ [number]
        links := c.links ++ [true] }
    else none
  | .write link =>
    if link ∈ c.undecided then none
    else
      match c.links[link]? with
      | none => none
      | some false => some c
      | some true =>
        some { c with
          service := c.service.receive
          written := c.written ++ [link]
          undecided := link :: c.undecided }
  | .charge link =>
    if link ∈ c.undecided then
      let (drops, service) := c.service.charge
      some { c with
        service
        undecided := c.undecided.erase link
        dropped := if drops then c.dropped ++ [link] else c.dropped
        links := if drops then c.links.set link false else c.links }
    else none
  | .close link =>
    if link ∈ c.undecided ∨ c.links.length ≤ link then none
    else some { c with closed := c.closed ++ [link], links := c.links.set link false }

/-- What a list of moves makes of a course. -/
def steps (c : MockCourse) (ms : List MockMove) : Option MockCourse := Moves.follow step c ms

variable {m : MockService} {c c' : MockCourse} {move : MockMove} {ms : List MockMove} {i k : Nat}

/-- What a move can make of a course. -/
inductive Does (c : MockCourse) : MockMove → MockCourse → Prop
  | arrive :
      Does c .arrive { c with
        service := c.service.takeNumber.2
        waiting := c.service.handshakes :: c.waiting
        inTurn := c.inTurn && c.waiting.isEmpty && c.passing.isEmpty }
  | turnAway (i : Nat) (hi : i ∈ c.waiting) (haway : c.service.turnsAway i = true) :
      Does c (.screen i) { c with
        waiting := c.waiting.erase i, verdicts := c.verdicts ++ [(i, false)] }
  | reject (i : Nat) (hi : i ∈ c.waiting) (haway : c.service.turnsAway i = false) (left : Nat)
      (hleft : c.service.failingConnects = left + 1) :
      Does c (.screen i) { c with
        service := { c.service with failingConnects := left }
        waiting := c.waiting.erase i, verdicts := c.verdicts ++ [(i, false)] }
  | pass (i : Nat) (hi : i ∈ c.waiting) (haway : c.service.turnsAway i = false)
      (hleft : c.service.failingConnects = 0) :
      Does c (.screen i) { c with
        waiting := c.waiting.erase i, verdicts := c.verdicts ++ [(i, true)]
        passing := i :: c.passing }
  | accept (i : Nat) (hi : i ∈ c.passing) :
      Does c (.accept i) { c with
        service := c.service.accept, passing := c.passing.erase i
        accepted := c.accepted ++ [i], links := c.links ++ [true] }
  | refuse (k : Nat) (hk : k ∉ c.undecided) (hlink : c.links[k]? = some false) : Does c (.write k) c
  | write (k : Nat) (hk : k ∉ c.undecided) (hlink : c.links[k]? = some true) :
      Does c (.write k) { c with
        service := c.service.receive, written := c.written ++ [k], undecided := k :: c.undecided }
  | drop (k : Nat) (hk : k ∈ c.undecided) (left : Nat) (hleft : c.service.droppedAcks = left + 1) :
      Does c (.charge k) { c with
        service := { c.service with droppedAcks := left }
        undecided := c.undecided.erase k, dropped := c.dropped ++ [k]
        links := c.links.set k false }
  | keep (k : Nat) (hk : k ∈ c.undecided) (hleft : c.service.droppedAcks = 0) :
      Does c (.charge k) { c with undecided := c.undecided.erase k }
  | close (k : Nat) (hk : k ∉ c.undecided) (hlink : k < c.links.length) :
      Does c (.close k) { c with closed := c.closed ++ [k], links := c.links.set k false }

theorem does_of_step (h : c.step move = some c') : Does c move c' := by
  cases move with
  | arrive =>
    cases h
    exact .arrive
  | screen i =>
    rw [step] at h
    obtain ⟨hi, hc'⟩ := Option.ite_none_right_eq_some.mp h
    rw [MockService.screen] at hc'
    cases haway : c.service.turnsAway i with
    | true =>
      rw [haway] at hc'
      cases hc'
      exact .turnAway i hi haway
    | false =>
      rw [haway] at hc'
      cases hleft : c.service.failingConnects with
      | zero =>
        rw [hleft] at hc'
        cases hc'
        exact .pass i hi haway hleft
      | succ left =>
        rw [hleft] at hc'
        cases hc'
        exact .reject i hi haway left hleft
  | accept i =>
    obtain ⟨hi, hc'⟩ := Option.ite_none_right_eq_some.mp h
    rw [← Option.some.inj hc']
    exact .accept i hi
  | write k =>
    obtain ⟨hk, hc'⟩ := Option.ite_none_left_eq_some.mp h
    split at hc'
    · cases hc'
    · next hlink =>
      cases hc'
      exact .refuse k hk hlink
    · next hlink =>
      cases hc'
      exact .write k hk hlink
  | charge k =>
    rw [step] at h
    obtain ⟨hk, hc'⟩ := Option.ite_none_right_eq_some.mp h
    rw [MockService.charge] at hc'
    cases hleft : c.service.droppedAcks with
    | zero =>
      rw [hleft] at hc'
      cases hc'
      exact .keep k hk hleft
    | succ left =>
      rw [hleft] at hc'
      cases hc'
      exact .drop k hk left hleft
  | close k =>
    obtain ⟨hk, hc'⟩ := Option.ite_none_left_eq_some.mp h
    obtain ⟨hfree, hlink⟩ := not_or.mp hk
    rw [← Option.some.inj hc']
    exact .close k hfree (Nat.not_le.mp hlink)

/-! ### The invariant -/

/-- Of handshakes that were decided, those that nothing but the budget could turn away. -/
def eligible (m : MockService) (verdicts : List (Nat × Bool)) : Nat :=
  verdicts.countP fun v => !m.turnsAway v.1

@[simp] theorem eligible_concat (m : MockService) (vs : List (Nat × Bool)) (i : Nat) (past : Bool) :
    eligible m (vs ++ [(i, past)]) = eligible m vs + if m.turnsAway i then 0 else 1 := by
  rw [eligible, List.countP_append, List.countP_singleton]
  cases m.turnsAway i <;> rfl

/-- The rule by which a handshake is decided after others: it gets past if nothing turns it away and
the whole budget has been spent before. -/
def GetsPast (m : MockService) (before : List (Nat × Bool)) (i : Nat) : Prop :=
  m.turnsAway i = false ∧ m.failingConnects ≤ eligible m before

/-- What every move keeps. -/
structure Sound (m : MockService) (c : MockCourse) : Prop where
  turnsAway : ∀ i, c.service.turnsAway i = m.turnsAway i
  /-- Every number that was taken belongs to one handshake, which waits or is decided. -/
  numbers : (c.waiting ++ c.verdicts.map (·.1)).Perm (List.range c.service.handshakes)
  /-- Those that got past are on their way to a link or have one. -/
  past : (c.passing ++ c.accepted).Perm ((c.verdicts.filter (·.2)).map (·.1))
  ruled : ∀ n i past, c.verdicts[n]? = some (i, past) →
    (past = true ↔ GetsPast m (c.verdicts.take n) i)
  passed : c.verdicts.countP (·.2) = eligible m c.verdicts - m.failingConnects
  connects : c.service.failingConnects = m.failingConnects - eligible m c.verdicts
  opened : c.service.opened = c.accepted.length
  links : c.links.length = c.accepted.length
  ordered : c.inTurn = true →
    c.verdicts.map (·.1) ++ c.waiting = List.range c.service.handshakes ∧ c.waiting.length ≤ 1
  sends : c.service.sends = c.written.length
  undecided : c.undecided.length ≤ c.written.length
  acks : c.service.droppedAcks = m.droppedAcks - (c.written.length - c.undecided.length)
  dropped : c.dropped.length = min m.droppedAcks (c.written.length - c.undecided.length)
  pending : ∀ k ∈ c.undecided, k < c.links.length
  known : ∀ k, k ∈ c.dropped ∨ k ∈ c.closed → k < c.links.length
  isOpen : ∀ k b, c.links[k]? = some b → (b = true ↔ k ∉ c.dropped ∧ k ∉ c.closed)

theorem sound_start (m : MockService) : (start m).Sound m where
  turnsAway := fun _ => rfl
  numbers := .refl _
  past := .refl _
  ruled := nofun
  passed := (Nat.zero_sub _).symm
  connects := rfl
  opened := rfl
  links := rfl
  ordered := fun _ => ⟨rfl, Nat.zero_le 1⟩
  sends := rfl
  undecided := Nat.le_refl 0
  acks := rfl
  dropped := (Nat.min_zero _).symm
  pending := nofun
  known := by rintro k (h | h) <;> cases h
  isOpen := nofun

namespace Sound

variable (hc : c.Sound m)
include hc

theorem arrive : Sound m { c with
    service := c.service.takeNumber.2
    waiting := c.service.handshakes :: c.waiting
    inTurn := c.inTurn && c.waiting.isEmpty && c.passing.isEmpty } := by
  refine { hc with numbers := ?_, ordered := ?_ }
  · show (c.service.handshakes :: (c.waiting ++ _)).Perm (List.range (c.service.handshakes + 1))
    rw [List.range_succ]
    exact (hc.numbers.cons _).trans (List.perm_append_singleton _ _).symm
  · intro hturn
    obtain ⟨⟨hturn, hwaiting⟩, -⟩ := by simpa only [Bool.and_eq_true] using hturn
    obtain ⟨hlist, -⟩ := hc.ordered hturn
    rw [List.isEmpty_iff.mp hwaiting] at hlist ⊢
    refine ⟨?_, Nat.le_refl 1⟩
    show _ = List.range (c.service.handshakes + 1)
    rw [List.range_succ, ← hlist, List.append_nil]

/-- A handshake is decided by the rule, and the budget is spent where nothing else turns it away. -/
theorem screen (past : Bool) (left : Nat) (hi : i ∈ c.waiting)
    (hpast : past = true ↔ GetsPast m c.verdicts i)
    (hleft : left = m.failingConnects - eligible m (c.verdicts ++ [(i, past)])) :
    Sound m { c with
      service := { c.service with failingConnects := left }
      waiting := c.waiting.erase i
      verdicts := c.verdicts ++ [(i, past)]
      passing := if past then i :: c.passing else c.passing } := by
  refine { hc with
    numbers := ?_, past := ?_, ruled := ?_, passed := ?_, connects := hleft, ordered := ?_ }
  · have hback : (c.waiting.erase i ++ (c.verdicts.map (·.1) ++ [i])).Perm
        (c.waiting ++ c.verdicts.map (·.1)) := by
      rw [← List.append_assoc]
      exact (List.perm_append_singleton _ _).trans ((List.perm_cons_erase hi).symm.append_right _)
    show (c.waiting.erase i ++ (c.verdicts ++ [(i, past)]).map (·.1)).Perm _
    rw [List.map_append]
    exact hback.trans hc.numbers
  · cases past with
    | false => simpa using hc.past
    | true =>
      show (i :: (c.passing ++ c.accepted)).Perm _
      rw [List.filter_append, List.map_append]
      exact (hc.past.cons i).trans (List.perm_append_singleton _ _).symm
  · intro n j q hn
    show _ ↔ GetsPast m ((c.verdicts ++ [(i, past)]).take n) j
    rcases Nat.lt_or_ge n c.verdicts.length with hlt | hge
    · rw [List.take_append_of_le_length (Nat.le_of_lt hlt)]
      rw [List.getElem?_append_left hlt] at hn
      exact hc.ruled n j q hn
    · obtain rfl : n = c.verdicts.length := by
        have hlen := (List.getElem?_eq_some_iff.mp hn).1
        rw [List.length_append, List.length_singleton] at hlen
        omega
      rw [List.getElem?_concat_length] at hn
      cases hn
      rw [List.take_left]
      exact hpast
  · show (c.verdicts ++ [(i, past)]).countP (·.2) = eligible m (c.verdicts ++ [(i, past)]) - _
    have hpassed := hc.passed
    rw [List.countP_append, List.countP_singleton, eligible_concat]
    cases haway : m.turnsAway i <;> cases past <;> simp [GetsPast, haway] at hpast ⊢ <;> omega
  · intro hturn
    obtain ⟨hlist, hlen⟩ := hc.ordered hturn
    obtain ⟨j, hj⟩ := List.length_eq_one_iff.mp
      (Nat.le_antisymm hlen (List.length_pos_of_mem hi))
    obtain rfl : i = j := by simpa [hj] using hi
    constructor
    · simp [hj] at hlist ⊢
      exact hlist
    · simp [hj]

/-- A handshake that got past ends with a new link. -/
theorem accept (hi : i ∈ c.passing) : Sound m { c with
    service := c.service.accept, passing := c.passing.erase i
    accepted := c.accepted ++ [i], links := c.links ++ [true] } := by
  have hmore : ∀ k, k < c.links.length → k < (c.links ++ [true]).length := fun k hk => by
    rw [List.length_append]
    exact Nat.lt_add_right _ hk
  refine { hc with
    past := ?_, opened := ?_, links := ?_
    pending := fun k hk => hmore k (hc.pending k hk)
    known := fun k hk => hmore k (hc.known k hk), isOpen := ?_ }
  · have hback : (c.passing.erase i ++ (c.accepted ++ [i])).Perm (c.passing ++ c.accepted) := by
      rw [← List.append_assoc]
      exact (List.perm_append_singleton _ _).trans ((List.perm_cons_erase hi).symm.append_right _)
    exact hback.trans hc.past
  · show c.service.opened + 1 = (c.accepted ++ [i]).length
    rw [hc.opened, List.length_append, List.length_singleton]
  · show (c.links ++ [true]).length = (c.accepted ++ [i]).length
    rw [List.length_append, List.length_append, hc.links, List.length_singleton,
      List.length_singleton]
  · intro k b hk
    rcases Nat.lt_or_ge k c.links.length with hlt | hge
    · rw [List.getElem?_append_left hlt] at hk
      exact hc.isOpen k b hk
    · have hfree : ¬ (k ∈ c.dropped ∨ k ∈ c.closed) := fun h => Nat.not_lt.mpr hge (hc.known k h)
      obtain rfl : b = true := by
        rw [List.getElem?_append_right hge] at hk
        exact (List.mem_singleton.mp (List.mem_of_getElem? hk))
      exact ⟨fun _ => not_or.mp hfree, fun _ => rfl⟩

/-- A message is written to an open link. -/
theorem write (hlink : k < c.links.length) : Sound m { c with
    service := c.service.receive, written := c.written ++ [k], undecided := k :: c.undecided } := by
  have hcount : (c.written ++ [k]).length - (k :: c.undecided).length =
      c.written.length - c.undecided.length := by
    rw [List.length_append, List.length_singleton, List.length_cons]
    omega
  refine { hc with
    sends := ?_, undecided := ?_, acks := ?_, dropped := ?_
    pending := List.forall_mem_cons.mpr ⟨hlink, hc.pending⟩ }
  · show c.service.sends + 1 = (c.written ++ [k]).length
    rw [hc.sends, List.length_append, List.length_singleton]
  · have hle := hc.undecided
    simp only [List.length_cons, List.length_append, List.length_nil]
    omega
  · show c.service.droppedAcks = _
    rw [hcount]
    exact hc.acks
  · show c.dropped.length = _
    rw [hcount]
    exact hc.dropped

/-- A link is closed, and something tells why. -/
theorem shut (k : Nat) (dropped closed : List Nat) (hlink : k < c.links.length)
    (hmem : ∀ j, j ∈ dropped ∨ j ∈ closed ↔ (j ∈ c.dropped ∨ j ∈ c.closed) ∨ j = k) :
    (∀ j, j ∈ dropped ∨ j ∈ closed → j < (c.links.set k false).length) ∧
      ∀ j b, (c.links.set k false)[j]? = some b → (b = true ↔ j ∉ dropped ∧ j ∉ closed) := by
  constructor
  · intro j hj
    rw [List.length_set]
    rcases (hmem j).mp hj with hj | rfl
    · exact hc.known j hj
    · exact hlink
  · intro j b hj
    rw [← not_or, hmem j]
    by_cases hjk : j = k
    · subst hjk
      rw [List.getElem?_set_self hlink] at hj
      cases hj
      simp
    · rw [List.getElem?_set_ne (Ne.symm hjk)] at hj
      rw [hc.isOpen j b hj, ← not_or]
      simp [hjk]

/-- One more of the messages that were written is decided. -/
theorem decided (hk : k ∈ c.undecided) :
    (c.undecided.erase k).length ≤ c.written.length ∧
      c.written.length - (c.undecided.erase k).length =
        c.written.length - c.undecided.length + 1 := by
  have hle := hc.undecided
  have hpos := List.length_pos_of_mem hk
  rw [List.length_erase_of_mem hk]
  omega

/-- A message is dropped, and its link is closed. -/
theorem drop {left : Nat} (hk : k ∈ c.undecided) (hleft : c.service.droppedAcks = left + 1) :
    Sound m { c with
      service := { c.service with droppedAcks := left }
      undecided := c.undecided.erase k, dropped := c.dropped ++ [k]
      links := c.links.set k false } := by
  obtain ⟨hle, hone⟩ := hc.decided hk
  obtain ⟨hknown, hopen⟩ := hc.shut k (c.dropped ++ [k]) c.closed (hc.pending k hk)
    (fun j => by simp [or_right_comm])
  have hacks := hc.acks
  have hdropped := hc.dropped
  refine { hc with
    links := ?_, undecided := hle, acks := ?_, dropped := ?_
    pending := fun j hj => by
      rw [List.length_set]
      exact hc.pending j (List.mem_of_mem_erase hj)
    known := hknown, isOpen := hopen }
  · show (c.links.set k false).length = c.accepted.length
    rw [List.length_set, hc.links]
  · show left = _
    rw [hone]
    omega
  · show (c.dropped ++ [k]).length = _
    rw [hone, List.length_append, List.length_singleton]
    omega

/-- A message is not dropped, because the budget is spent. -/
theorem keep (hk : k ∈ c.undecided) (hleft : c.service.droppedAcks = 0) :
    Sound m { c with undecided := c.undecided.erase k } := by
  obtain ⟨hle, hone⟩ := hc.decided hk
  have hacks := hc.acks
  have hdropped := hc.dropped
  refine { hc with
    undecided := hle, acks := ?_, dropped := ?_
    pending := fun j hj => hc.pending j (List.mem_of_mem_erase hj) }
  · show c.service.droppedAcks = _
    rw [hone]
    omega
  · show c.dropped.length = _
    rw [hone]
    omega

/-- The owner closes a link. -/
theorem close (hlink : k < c.links.length) :
    Sound m { c with closed := c.closed ++ [k], links := c.links.set k false } := by
  obtain ⟨hknown, hopen⟩ := hc.shut k c.dropped (c.closed ++ [k]) hlink
    (fun j => by simp [or_assoc])
  refine { hc with
    links := ?_
    pending := fun j hj => by
      rw [List.length_set]
      exact hc.pending j hj
    known := hknown, isOpen := hopen }
  show (c.links.set k false).length = c.accepted.length
  rw [List.length_set, hc.links]

end Sound

/-- **Every move keeps the counts in step with what has become of the calls.** -/
theorem sound_step (h : c.step move = some c') (hc : c.Sound m) : c'.Sound m := by
  cases does_of_step h with
  | arrive => exact hc.arrive
  | turnAway i hi haway =>
    rw [hc.turnsAway] at haway
    refine hc.screen false c.service.failingConnects hi ?_ ?_
    · simp [GetsPast, haway]
    · simp [haway, hc.connects]
  | reject i hi haway left hleft =>
    rw [hc.turnsAway] at haway
    rw [hc.connects] at hleft
    refine hc.screen false left hi ?_ ?_
    · have hunspent : ¬ m.failingConnects ≤ eligible m c.verdicts := by omega
      simp [GetsPast, hunspent]
    · rw [eligible_concat, haway, if_neg Bool.false_ne_true]
      omega
  | pass i hi haway hleft =>
    rw [hc.turnsAway] at haway
    have hspent : m.failingConnects ≤ eligible m c.verdicts := by
      rw [hc.connects] at hleft
      omega
    refine hc.screen true c.service.failingConnects hi ?_ ?_
    · simp [GetsPast, haway, hspent]
    · rw [hleft, eligible_concat]
      omega
  | accept i hi => exact hc.accept hi
  | refuse k hk hlink => exact hc
  | write k hk hlink => exact hc.write (List.getElem?_eq_some_iff.mp hlink).1
  | drop k hk left hleft => exact hc.drop hk hleft
  | keep k hk hleft => exact hc.keep hk hleft
  | close k hk hlink => exact hc.close hlink

theorem sound_steps (h : c.steps ms = some c') (hc : c.Sound m) : c'.Sound m :=
  Moves.invariant (fun _ _ _ hs hstep => sound_step hstep hs) h hc

/-! ### Calls in one piece -/

/-- The moves of a handshake that nothing comes between. -/
def handshakeMoves (c : MockCourse) : List MockMove :=
  let number := c.service.handshakes
  if c.service.handshake.1 then [.arrive, .screen number, .accept number]
  else [.arrive, .screen number]

/-- The moves of a message on a link that nothing comes between. -/
def messageMoves (link : Nat) (linkOpen : Bool) : List MockMove :=
  if linkOpen then [.write link, .charge link] else [.write link]

theorem steps_handshake (c : MockCourse) :
    (c.steps c.handshakeMoves).map (·.service) = some c.service.handshake.2 := by
  have hjudge : c.service.handshake = c.service.takeNumber.2.judge c.service.handshakes := rfl
  rw [handshakeMoves, hjudge, MockService.judge_eq]
  rcases hs : c.service.takeNumber.2.screen c.service.handshakes with ⟨past, m⟩
  rw [MockService.takeNumber] at hs
  cases past <;> simp [steps, Moves.follow, step, MockService.takeNumber, hs]

theorem step_write (hk : k ∉ c.undecided) (hlink : c.links[k]? = some true) :
    c.step (.write k) = some { c with
      service := c.service.receive, written := c.written ++ [k]
      undecided := k :: c.undecided } := by
  rw [step, if_neg hk, hlink]

theorem step_write_of_closed (hk : k ∉ c.undecided) (hlink : c.links[k]? = some false) :
    c.step (.write k) = some c := by
  rw [step, if_neg hk, hlink]

theorem step_charge {drops : Bool} (hk : k ∈ c.undecided) (hm : c.service.charge = (drops, m)) :
    c.step (.charge k) = some { c with
      service := m
      undecided := c.undecided.erase k
      dropped := if drops then c.dropped ++ [k] else c.dropped
      links := if drops then c.links.set k false else c.links } := by
  rw [step, if_pos hk, hm]

theorem steps_pair {d : MockCourse} {a b : MockMove} (h : c.step a = some d)
    (h' : d.step b = some c') : c.steps [a, b] = some c' := by
  rw [steps, Moves.follow, h, Option.bind_some, Moves.follow, h']
  rfl

theorem steps_message (timeout : Duration) {linkOpen : Bool} (hk : k ∉ c.undecided)
    (hlink : c.links[k]? = some linkOpen) : ∃ c', c.steps (messageMoves k linkOpen) = some c' ∧
      c'.service = (c.service.send linkOpen timeout).2 ∧
      c'.links[k]? = some (c.service.send linkOpen timeout).1.linkOpen := by
  cases linkOpen with
  | false =>
    refine ⟨c, ?_, rfl, hlink⟩
    simp [messageMoves, steps, Moves.follow, step_write_of_closed hk hlink]
  | true =>
    rw [MockService.send_true]
    rcases hs : c.service.receive.charge with ⟨drops, m⟩
    refine ⟨_, steps_pair (step_write hk hlink) (step_charge List.mem_cons_self hs), rfl, ?_⟩
    cases drops with
    | false => exact hlink.trans (congrArg some (c.service.linkOpen_answers timeout).symm)
    | true => exact List.getElem?_set_self (List.getElem?_eq_some_iff.mp hlink).1

/-! ### At every moment -/

/-- What is true at every moment of a course that began with the settings of `m`. -/
structure Tallied (m : MockService) (c : MockCourse) : Prop where
  /-- Every handshake that ended with a link is counted as one. -/
  opened : c.service.opened = c.accepted.length ∧ c.links.length = c.accepted.length
  /-- When no handshake is under way, as many were accepted as nothing turns away, less the
  budget. -/
  accepted : c.waiting = [] → c.passing = [] →
    c.service.opened = m.within c.service.handshakes - m.failingConnects
  /-- While some are, it is the decided ones that count. -/
  passed : c.passing.length + c.accepted.length = eligible m c.verdicts - m.failingConnects
  /-- A stand-in that refuses every handshake opens no link and keeps its budget. -/
  refused : m.refuse = true →
    c.service.opened = 0 ∧ c.service.failingConnects = m.failingConnects
  /-- One handshake after the other, those are accepted whose numbers lie between the budget and the
  limit. -/
  inTurn : c.inTurn = true → ∀ i < c.service.handshakes, i ∉ c.waiting → i ∉ c.passing →
    (i ∈ c.accepted ↔
      m.refuse = false ∧ m.failingConnects ≤ i ∧ ∀ limit ∈ m.acceptLimit, i < limit)
  /-- Every message that was written to an open link is counted. -/
  sends : c.service.sends = c.written.length
  /-- When no message is under way, as many were dropped as the budget allows. -/
  dropped : c.undecided = [] → c.dropped.length = min m.droppedAcks c.service.sends
  /-- While some are, it is the decided ones that count. -/
  charged : c.dropped.length = min m.droppedAcks (c.service.sends - c.undecided.length)
  /-- A link is open until a message on it is dropped or its owner closes it. -/
  isOpen : ∀ k linkOpen, c.links[k]? = some linkOpen →
    (linkOpen = true ↔ k ∉ c.dropped ∧ k ∉ c.closed)
  /-- A message on a closed link changes nothing. -/
  closed : ∀ k, k ∉ c.undecided → c.links[k]? = some false → c.step (.write k) = some c
  /-- Without anybody in between, the moves of a handshake are one. -/
  handshake : (c.steps c.handshakeMoves).map (·.service) = some c.service.handshake.2
  /-- Without anybody in between, the moves of a message are one. -/
  message : ∀ k linkOpen timeout, k ∉ c.undecided → c.links[k]? = some linkOpen →
    ∃ c', c.steps (messageMoves k linkOpen) = some c' ∧
      c'.service = (c.service.send linkOpen timeout).2 ∧
      c'.links[k]? = some (c.service.send linkOpen timeout).1.linkOpen

namespace Sound

variable (hc : c.Sound m)
include hc

/-- When no handshake is under way, as many were eligible as nothing turns away. -/
theorem eligible_eq (hwaiting : c.waiting = []) :
    eligible m c.verdicts = m.within c.service.handshakes := by
  have hperm := hc.numbers
  rw [hwaiting, List.nil_append] at hperm
  rw [← MockService.countP_range, ← hperm.countP_eq, List.countP_map]
  rfl

theorem passed_eq :
    c.passing.length + c.accepted.length = eligible m c.verdicts - m.failingConnects := by
  have hlen := hc.past.length_eq
  rw [List.length_append, List.length_map, ← List.countP_eq_length_filter] at hlen
  rw [hlen, hc.passed]

/-- Handshakes that came one after the other were decided in the order of their numbers. -/
theorem verdict_of_inTurn (hturn : c.inTurn = true) {n : Nat} {past : Bool}
    (h : c.verdicts[n]? = some (i, past)) :
    i = n ∧ (past = true ↔ m.turnsAway i = false ∧ m.failingConnects ≤ i) := by
  obtain ⟨hlist, -⟩ := hc.ordered hturn
  have hlt := (List.getElem?_eq_some_iff.mp h).1
  have hle : c.verdicts.length ≤ c.service.handshakes := by
    have hlen := congrArg List.length hlist
    rw [List.length_append, List.length_map, List.length_range] at hlen
    omega
  have hfirst : c.verdicts.map (·.1) = List.range c.verdicts.length := by
    calc c.verdicts.map (·.1)
        = (c.verdicts.map (·.1) ++ c.waiting).take c.verdicts.length :=
          (List.take_left' (List.length_map _)).symm
      _ = (List.range c.service.handshakes).take c.verdicts.length := by rw [hlist]
      _ = List.range c.verdicts.length := by rw [List.take_range, Nat.min_eq_left hle]
  have hin : i = n := by
    have hn : (c.verdicts.map (·.1))[n]? = some i := by rw [List.getElem?_map, h]; rfl
    rw [hfirst, List.getElem?_range hlt] at hn
    exact (Option.some.inj hn).symm
  refine ⟨hin, (hc.ruled n i past h).trans (and_congr_right fun haway => ?_)⟩
  have hcount : eligible m (c.verdicts.take n) = m.within n := by
    have htake : (c.verdicts.take n).map (·.1) = List.range n := by
      rw [List.map_take, hfirst, List.take_range, Nat.min_eq_left (Nat.le_of_lt hlt)]
    rw [← MockService.countP_range, ← htake, List.countP_map]
    rfl
  rw [hcount, ← hin, MockService.within_of_turnsAway_eq_false haway]

theorem mem_accepted_iff (hturn : c.inTurn = true) (hi : i < c.service.handshakes)
    (hwaiting : i ∉ c.waiting) (hpassing : i ∉ c.passing) :
    i ∈ c.accepted ↔ m.turnsAway i = false ∧ m.failingConnects ≤ i := by
  obtain ⟨hlist, -⟩ := hc.ordered hturn
  have hmem : i ∈ c.verdicts.map (·.1) ++ c.waiting := hlist ▸ List.mem_range.mpr hi
  obtain ⟨⟨j, past⟩, hv, rfl⟩ := List.mem_map.mp ((List.mem_append.mp hmem).resolve_right hwaiting)
  obtain ⟨n, hn⟩ := List.mem_iff_getElem?.mp hv
  obtain ⟨rfl, hpast⟩ := hc.verdict_of_inTurn hturn hn
  rw [← hpast]
  have hacc : j ∈ c.passing ++ c.accepted ↔ j ∈ (c.verdicts.filter (·.2)).map (·.1) :=
    hc.past.mem_iff
  constructor
  · intro hj
    obtain ⟨⟨i, past'⟩, hv', rfl⟩ := List.mem_map.mp (hacc.mp (List.mem_append_right _ hj))
    obtain ⟨hv', hpast'⟩ := List.mem_filter.mp hv'
    obtain ⟨n', hn'⟩ := List.mem_iff_getElem?.mp hv'
    obtain ⟨rfl, -⟩ := hc.verdict_of_inTurn hturn hn'
    rw [hn'] at hn
    cases hn
    exact hpast'
  · rintro rfl
    have hj := hacc.mpr (List.mem_map.mpr ⟨_, List.mem_filter.mpr ⟨hv, rfl⟩, rfl⟩)
    exact (List.mem_append.mp hj).resolve_left hpassing

theorem tallied : c.Tallied m where
  opened := ⟨hc.opened, hc.links⟩
  accepted := by
    intro hwaiting hpassing
    have hpassed := hc.passed_eq
    rw [hpassing, List.length_nil, Nat.zero_add] at hpassed
    rw [hc.opened, hpassed, hc.eligible_eq hwaiting]
  passed := hc.passed_eq
  refused := by
    intro hrefuse
    have hnone : eligible m c.verdicts = 0 := by
      rw [eligible, List.countP_eq_zero]
      simp [MockService.turnsAway, hrefuse]
    have hpassed := hc.passed_eq
    rw [hnone] at hpassed
    rw [hc.opened, hc.connects, hnone]
    omega
  inTurn := by
    intro hturn i hi hwaiting hpassing
    rw [hc.mem_accepted_iff hturn hi hwaiting hpassing, MockService.turnsAway_eq_false_iff]
    exact and_right_comm.trans and_assoc
  sends := hc.sends
  dropped := by
    intro hnone
    have hdropped := hc.dropped
    rwa [hnone, List.length_nil, Nat.sub_zero, ← hc.sends] at hdropped
  charged := by rw [hc.sends, hc.dropped]
  isOpen := hc.isOpen
  closed := fun _ hk hlink => step_write_of_closed hk hlink
  handshake := steps_handshake c
  message := fun _ _ timeout hk hlink => steps_message timeout hk hlink

end Sound

/-- **The stand-in keeps its tallies** at every moment, however the calls of its clients come
between one another. -/
theorem tallied_of_steps (h : (start m).steps ms = some c) : c.Tallied m :=
  (sound_steps h (sound_start m)).tallied

/-! ### A rush -/

/-- A stand-in that accepts the first three handshakes, less one that it rejects, and drops one
acknowledgement. -/
def scanty : MockService := { acceptLimit := some 3, failingConnects := 1, droppedAcks := 1 }

/-- Of two handshakes at a time the later one is decided first and spends the budget. The message on
the second link is charged before the earlier one on the first, and its link refuses the next one. A
fourth handshake comes too late. -/
def rush : List MockMove :=
  [.arrive, .arrive, .screen 1, .screen 0, .accept 0, .write 0, .arrive, .screen 2, .accept 2,
    .write 1, .charge 1, .charge 0, .arrive, .screen 3, .write 1]

/-- The stand-in after that. -/
def rushed : MockCourse := ((start scanty).steps rush).get (by decide)

/-- Of four handshakes two were accepted, and of two messages one was dropped. -/
theorem tallied_of_rush : (start scanty).steps rush = some rushed ∧
    rushed.accepted = [0, 2] ∧ rushed.service.opened = 2 ∧
    rushed.links = [true, false] ∧ rushed.service.sends = 2 ∧ rushed.dropped.length = 1 ∧
    rushed.step (.write 1) = some rushed := by
  have hsteps : (start scanty).steps rush = some rushed := (Option.some_get _).symm
  have htallied := tallied_of_steps hsteps
  refine ⟨hsteps, by decide, ?_, by decide, htallied.sends, ?_, ?_⟩
  · exact htallied.accepted (by decide) (by decide)
  · exact htallied.dropped (by decide)
  · exact htallied.closed 1 (by decide) (by decide)

end MockCourse

end LoadRig
