import LoadRig.Chat.Hall
import LoadRig.Proofs.Chat.Sessions
import LoadRig.Proofs.Moves
/-!
# The course of a hall

Sockets come to the chat service, each to a room; things happen at them, in any order; and the
service to each of them ends at some time. `HallCourse` is the hall together with all sockets that
ever came, what has happened at each and what was sent to each. To come is two moves, because the
number of a session is taken before the session is entered.

The replies that were sent to a socket are those that are due to what has happened at it, up to the
first thing that ended the service. Until then the session of the socket is entered under its room,
and never again afterwards. So the health report counts the sockets that are served.

## Main definitions

* `LoadRig.SocketEvent.ends`, `LoadRig.repliesTo` — what is due to the events at a socket.
* `LoadRig.HallCourse`, `LoadRig.HallMove`
* `LoadRig.HallCourse.step`, `LoadRig.HallCourse.steps` — what moves make of a course.
* `LoadRig.HallCourse.served` — the sockets that are served.
* `LoadRig.HallCourse.Attentive` — what is true of a course at every moment.

## Main results

* `LoadRig.HallCourse.does_of_step` — what a move can make of a course.
* `LoadRig.HallCourse.sound_step`, `LoadRig.HallCourse.sound_steps` — the invariant.
* `LoadRig.HallCourse.attentive_of_steps` — what is true at every moment.
-/

namespace LoadRig

open LoadRig.Json

/-! ### What is due to a socket -/

/-- Whether an event ends the service to its socket. -/
def SocketEvent.ends : SocketEvent → Bool
  | .text _ sendable => !sendable
  | .other => false
  | .close | .failure | .finish => true

/-- The reply to an event that does not end the service. -/
def SocketEvent.reply? (stamp : List Char) : SocketEvent → Option Reply
  | .text payload _ => some (respond stamp payload)
  | _ => none

/-- The replies to the events at a socket, each with the time at which it is dealt with: one for each
text frame before the first event that ends the service. -/
def repliesTo : List (List Char × SocketEvent) → List Reply
  | [] => []
  | e :: es => if e.2.ends then [] else (e.2.reply? e.1).toList ++ repliesTo es

/-- Nothing is due to what happens after the service has ended. -/
theorem repliesTo_append (es fs : List (List Char × SocketEvent)) :
    repliesTo (es ++ fs) = repliesTo es ++ if es.any (·.2.ends) then [] else repliesTo fs := by
  induction es with
  | nil => rfl
  | cons e es ih =>
    rw [List.cons_append, repliesTo, repliesTo, List.any_cons]
    cases e.2.ends with
    | true => rfl
    | false => rw [if_neg nofun, if_neg nofun, ih, List.append_assoc, Bool.false_or]

/-! ### Single events -/

namespace Hall

variable {h : Hall} {socket : Nat} {s : Seat} {e : SocketEvent}

theorem handle_of_ends (stamp : List Char) (hs : h.seat? socket = some s) (he : e.ends = true) :
    h.handle stamp socket e = (h.dismiss socket s, none) := by
  cases e with
  | text payload sendable =>
    obtain rfl : sendable = false := by simpa [SocketEvent.ends] using he
    simp [handle, hs]
  | other => cases he
  | close | failure | finish => simp [handle, hs]

theorem handle_of_not_ends (stamp : List Char) (hs : h.seat? socket = some s)
    (he : e.ends = false) : h.handle stamp socket e = (h, e.reply? stamp) := by
  cases e with
  | text payload sendable =>
    obtain rfl : sendable = true := by simpa [SocketEvent.ends] using he
    simp [handle, hs, SocketEvent.reply?]
  | other => simp [handle, hs, SocketEvent.reply?]
  | close | failure | finish => cases he

theorem handle_of_none (stamp : List Char) (hs : h.seat? socket = none) (e : SocketEvent) :
    h.handle stamp socket e = (h, none) := by
  simp [handle, hs]

end Hall

/-- The session of a seat, with its room. -/
def Seat.pair (s : Seat) : List Char × Nat := (s.room, s.session)

/-! ### The course -/

/-- A hall, the sockets that ever came, what has happened at them and what was sent to them. -/
structure HallCourse where
  hall : Hall := {}
  /-- The sockets that ever came, with their seats. -/
  came : List (Nat × Seat) := []
  /-- The sockets whose sessions have a number but are not entered yet. -/
  arriving : List Nat := []
  /-- What has happened, at which socket, and the time at which it was dealt with. -/
  events : List (Nat × List Char × SocketEvent) := []
  sent : List (Nat × Reply) := []

/-- What can happen in a hall. -/
inductive HallMove where
  /-- A new socket comes to a room, and its session gets a number. -/
  | arrive (socket : Nat) (room : List Char)
  /-- The session of a socket is entered, and the service to it begins. -/
  | enter (socket : Nat)
  /-- Something happens at a socket. -/
  | happen (stamp : List Char) (socket : Nat) (e : SocketEvent)

namespace HallCourse

/-- A socket has come some time. -/
def Knows (c : HallCourse) (socket : Nat) : Prop := socket ∈ c.came.map (·.1)

instance (c : HallCourse) (socket : Nat) : Decidable (c.Knows socket) :=
  inferInstanceAs (Decidable (_ ∈ _))

/-- The seat of a socket that has come. -/
def seatOf? (c : HallCourse) (socket : Nat) : Option Seat :=
  (c.came.find? (·.1 == socket)).map (·.2)

/-- What has happened at a socket, in order. -/
def eventsAt (c : HallCourse) (socket : Nat) : List (List Char × SocketEvent) :=
  (c.events.filter (·.1 == socket)).map (·.2)

/-- What was sent to a socket, in order. -/
def sentTo (c : HallCourse) (socket : Nat) : List Reply :=
  (c.sent.filter (·.1 == socket)).map (·.2)

/-- Something has happened at a socket, and a reply may have been sent to it. -/
def note (c : HallCourse) (k : Nat) (stamp : List Char) (e : SocketEvent) (r : Option Reply) :
    HallCourse :=
  { c with events := c.events ++ [(k, stamp, e)], sent := c.sent ++ (r.map (k, ·)).toList }

/-- The hall deals with what happens at a socket. -/
def deal (c : HallCourse) (stamp : List Char) (k : Nat) (e : SocketEvent) : HallCourse :=
  let x := c.hall.handle stamp k e
  { c with hall := x.1 }.note k stamp e x.2

/-- What a move makes of a course; nothing if the move cannot happen. -/
def step (c : HallCourse) : HallMove → Option HallCourse
  | .arrive k room =>
    if c.Knows k then none
    else
      let (session, sessions) := c.hall.sessions.allocate
      some { c with
        hall := { c.hall with sessions }
        came := (k, { room, session }) :: c.came
        arriving := k :: c.arriving }
  | .enter k =>
    if k ∈ c.arriving then
      (c.seatOf? k).map fun s =>
        { c with
          hall := { sessions := c.hall.sessions.enter s.room s.session, seats := (k, s) :: c.hall.seats }
          arriving := c.arriving.filter (· != k) }
    else none
  | .happen stamp k e =>
    if c.Knows k ∧ k ∉ c.arriving then some (c.deal stamp k e) else none

/-- What a list of moves makes of a course. -/
def steps (c : HallCourse) (ms : List HallMove) : Option HallCourse := Moves.follow step c ms

/-- A socket is served while its session is entered and nothing has ended the service. -/
def isServed (c : HallCourse) (x : Nat × Seat) : Bool :=
  !c.arriving.contains x.1 && !(c.eventsAt x.1).any (·.2.ends)

/-- The sockets that are served. -/
def served (c : HallCourse) : List (Nat × Seat) := c.came.filter c.isServed

variable {c c' : HallCourse} {m : HallMove} {ms : List HallMove} {k j : Nat} {s : Seat}
  {x : Nat × Seat} {stamp : List Char} {e : SocketEvent} {r : Option Reply}

@[simp] theorem eventsAt_note_self :
    (c.note k stamp e r).eventsAt k = c.eventsAt k ++ [(stamp, e)] := by
  simp [note, eventsAt]

theorem eventsAt_note_of_ne (h : j ≠ k) : (c.note k stamp e r).eventsAt j = c.eventsAt j := by
  simp [note, eventsAt, Ne.symm h]

@[simp] theorem sentTo_note_self : (c.note k stamp e r).sentTo k = c.sentTo k ++ r.toList := by
  cases r <;> simp [note, sentTo]

theorem sentTo_note_of_ne (h : j ≠ k) : (c.note k stamp e r).sentTo j = c.sentTo j := by
  cases r <;> simp [note, sentTo, Ne.symm h]

/-! ### Single moves -/

/-- What a move can make of a course: a socket comes, it is entered, or something happens at a socket
that is served, goes on to be served or not, or that is not served any more. -/
inductive Does (c : HallCourse) : HallMove → HallCourse → Prop
  | arrive (k : Nat) (room : List Char) (hk : ¬c.Knows k) :
      Does c (.arrive k room) { c with
        hall := { c.hall with sessions := c.hall.sessions.allocate.2 }
        came := (k, { room, session := c.hall.sessions.next }) :: c.came
        arriving := k :: c.arriving }
  | enter (k : Nat) (s : Seat) (hk : k ∈ c.arriving) (hs : (k, s) ∈ c.came) :
      Does c (.enter k) { c with
        hall := {
          sessions := c.hall.sessions.enter s.room s.session
          seats := (k, s) :: c.hall.seats }
        arriving := c.arriving.filter (· != k) }
  | stayed (stamp : List Char) (k : Nat) (e : SocketEvent) (s : Seat) (hs : (k, s) ∈ c.hall.seats)
      (he : e.ends = false) : Does c (.happen stamp k e) (c.note k stamp e (e.reply? stamp))
  | left (stamp : List Char) (k : Nat) (e : SocketEvent) (s : Seat) (hs : (k, s) ∈ c.hall.seats)
      (he : e.ends = true) :
      Does c (.happen stamp k e) ({ c with hall := c.hall.dismiss k s }.note k stamp e none)
  | unheard (stamp : List Char) (k : Nat) (e : SocketEvent) (hk : c.Knows k) (ha : k ∉ c.arriving)
      (hs : ∀ s, (k, s) ∉ c.hall.seats) : Does c (.happen stamp k e) (c.note k stamp e none)

theorem find?_eq_some_of_fst {l : List (Nat × Seat)}
    (h : (l.find? (·.1 == k)).map (·.2) = some s) : (k, s) ∈ l := by
  obtain ⟨x, hx, rfl⟩ := Option.map_eq_some_iff.mp h
  have hk : x.1 = k := by simpa using List.find?_some hx
  exact hk ▸ List.mem_of_find?_eq_some hx

theorem does_deal (stamp : List Char) (e : SocketEvent) (hk : c.Knows k) (ha : k ∉ c.arriving) :
    Does c (.happen stamp k e) (c.deal stamp k e) := by
  cases hs : c.hall.seat? k with
  | none =>
    rw [deal, Hall.handle_of_none stamp hs]
    refine .unheard stamp k e hk ha fun s hmem => ?_
    have hnone := List.find?_eq_none.mp (Option.map_eq_none_iff.mp hs) _ hmem
    simp at hnone
  | some s =>
    have hmem := find?_eq_some_of_fst hs
    cases he : e.ends with
    | true =>
      rw [deal, Hall.handle_of_ends stamp hs he]
      exact .left stamp k e s hmem he
    | false =>
      rw [deal, Hall.handle_of_not_ends stamp hs he]
      exact .stayed stamp k e s hmem he

theorem does_of_step (h : c.step m = some c') : Does c m c' := by
  cases m with
  | arrive k room =>
    rw [step] at h
    split at h
    · cases h
    · next hk =>
      rw [← Option.some.inj h]
      exact .arrive k room hk
  | enter k =>
    obtain ⟨hk, hc'⟩ := Option.ite_none_right_eq_some.mp h
    obtain ⟨s, hs, rfl⟩ := Option.map_eq_some_iff.mp hc'
    exact .enter k s hk (find?_eq_some_of_fst hs)
  | happen stamp k e =>
    obtain ⟨⟨hk, ha⟩, hc'⟩ := Option.ite_none_right_eq_some.mp h
    rw [← Option.some.inj hc']
    exact does_deal stamp e hk ha

/-! ### The invariant -/

/-- What every move keeps. The seats of the hall are those of the sockets that are served, and their
sessions are what is remembered. -/
structure Sound (c : HallCourse) : Prop where
  sockets : (c.came.map (·.1)).Nodup
  sessions : (c.came.map (·.2.session)).Nodup
  lt_next : ∀ x ∈ c.came, x.2.session < c.hall.sessions.next
  /-- Nothing happens at a socket before the service to it begins. -/
  quiet : ∀ k, ¬c.Knows k ∨ k ∈ c.arriving → c.eventsAt k = []
  seats_nodup : c.hall.seats.Nodup
  mem_seats : ∀ x, x ∈ c.hall.seats ↔ x ∈ c.served
  tidy : c.hall.sessions.Tidy
  pairs : c.hall.sessions.pairs.Perm (c.hall.seats.map (·.2.pair))
  sent : ∀ k, c.sentTo k = repliesTo (c.eventsAt k)

theorem sound_start : ({} : HallCourse).Sound where
  sockets := .nil
  sessions := .nil
  lt_next := nofun
  quiet := fun _ _ => rfl
  seats_nodup := .nil
  mem_seats := fun _ => .rfl
  tidy := ⟨.nil, nofun⟩
  pairs := .refl _
  sent := fun _ => rfl

theorem mem_served : x ∈ c.served ↔
    x ∈ c.came ∧ x.1 ∉ c.arriving ∧ (c.eventsAt x.1).any (·.2.ends) = false := by
  simp [served, isServed]

/-- An event ends the service to its own socket, if it ends any. -/
theorem mem_served_note :
    x ∈ (c.note k stamp e r).served ↔ x ∈ c.served ∧ ¬(x.1 = k ∧ e.ends = true) := by
  rw [mem_served, mem_served]
  show x ∈ c.came ∧ x.1 ∉ c.arriving ∧ _ ↔ _
  by_cases hx : x.1 = k
  · rw [hx, eventsAt_note_self]
    simp [and_assoc]
  · rw [eventsAt_note_of_ne hx]
    simp [hx]

namespace Sound

variable (hc : c.Sound)
include hc

theorem knows (h : (k, s) ∈ c.hall.seats) : (k, s) ∈ c.came ∧ k ∉ c.arriving ∧
    (c.eventsAt k).any (·.2.ends) = false :=
  mem_served.mp ((hc.mem_seats _).mp h)

/-- A socket has one seat. -/
theorem eq_of_socket {y : Nat × Seat} (hx : x ∈ c.came) (hy : y ∈ c.came) (h : x.1 = y.1) : x = y :=
  List.inj_on_of_nodup_map hc.sockets hx hy h

/-- A session is that of one socket. -/
theorem eq_of_pair {y : Nat × Seat} (hx : x ∈ c.came) (hy : y ∈ c.came)
    (h : x.2.pair = y.2.pair) : x = y :=
  List.inj_on_of_nodup_map hc.sessions hx hy (congrArg Prod.snd h)

/-- **A session is remembered while its socket is served.** -/
theorem mem_pairs (hx : x ∈ c.came) : x.2.pair ∈ c.hall.sessions.pairs ↔ x ∈ c.served := by
  rw [hc.pairs.mem_iff, List.mem_map, ← hc.mem_seats]
  constructor
  · rintro ⟨y, hy, hpair⟩
    rwa [← hc.eq_of_pair (hc.knows hy).1 hx hpair]
  · intro h
    exact ⟨x, h, rfl⟩

/-- A socket comes and nothing has happened at it. -/
theorem arrive (room : List Char) (hk : ¬c.Knows k) :
    Sound { c with
      hall := { c.hall with sessions := c.hall.sessions.allocate.2 }
      came := (k, { room, session := c.hall.sessions.next }) :: c.came
      arriving := k :: c.arriving } where
  sockets := List.nodup_cons.mpr ⟨hk, hc.sockets⟩
  sessions := by
    refine List.nodup_cons.mpr ⟨fun hmem => ?_, hc.sessions⟩
    obtain ⟨y, hy, hnext⟩ := List.mem_map.mp hmem
    exact absurd (hc.lt_next y hy) (by simp [hnext])
  lt_next := List.forall_mem_cons.mpr
    ⟨Nat.lt_succ_self _, fun y hy => Nat.lt_succ_of_lt (hc.lt_next y hy)⟩
  quiet := by
    rintro j (hj | hj)
    · exact hc.quiet j (.inl fun hmem => hj (List.mem_cons_of_mem _ hmem))
    · obtain rfl | hj := List.mem_cons.mp hj
      · exact hc.quiet j (.inl hk)
      · exact hc.quiet j (.inr hj)
  seats_nodup := hc.seats_nodup
  mem_seats := by
    intro x
    rw [hc.mem_seats, mem_served, mem_served]
    constructor
    · rintro ⟨hx, ha, he⟩
      refine ⟨.tail _ hx, fun hmem => ?_, he⟩
      obtain heq | hmem := List.mem_cons.mp hmem
      · exact hk (heq ▸ List.mem_map_of_mem hx)
      · exact ha hmem
    · rintro ⟨hx, ha, he⟩
      obtain rfl | hx := List.mem_cons.mp hx
      · exact absurd (.head _) ha
      · exact ⟨hx, fun hmem => ha (.tail _ hmem), he⟩
  tidy := ⟨hc.tidy.nodup, hc.tidy.ne_nil⟩
  pairs := hc.pairs
  sent := hc.sent

/-- The service to a socket begins. -/
theorem enter (hk : k ∈ c.arriving) (hs : (k, s) ∈ c.came) :
    Sound { c with
      hall := {
        sessions := c.hall.sessions.enter s.room s.session
        seats := (k, s) :: c.hall.seats }
      arriving := c.arriving.filter (· != k) } := by
  have hnew : ∀ s', (k, s') ∉ c.hall.seats := fun s' hmem => (hc.knows hmem).2.1 hk
  have hpair : s.pair ∉ c.hall.sessions.pairs := fun hmem =>
    hnew s ((hc.mem_seats _).mpr ((hc.mem_pairs hs).mp hmem))
  exact {
    sockets := hc.sockets
    sessions := hc.sessions
    lt_next := hc.lt_next
    quiet := fun j hj => hc.quiet j (hj.imp_right fun hmem => (List.mem_filter.mp hmem).1)
    seats_nodup := List.nodup_cons.mpr ⟨hnew s, hc.seats_nodup⟩
    mem_seats := by
      intro x
      rw [List.mem_cons, hc.mem_seats, mem_served, mem_served]
      constructor
      · rintro (rfl | ⟨hx, ha, he⟩)
        · refine ⟨hs, by simp, ?_⟩
          show (c.eventsAt k).any (·.2.ends) = false
          rw [hc.quiet k (.inr hk)]
          rfl
        · exact ⟨hx, fun hmem => ha (List.mem_filter.mp hmem).1, he⟩
      · rintro ⟨hx, ha, he⟩
        by_cases hxk : x.1 = k
        · exact .inl (hc.eq_of_socket hx hs hxk)
        · exact .inr ⟨hx, fun hmem => ha (List.mem_filter.mpr ⟨hmem, by simpa using hxk⟩), he⟩
    tidy := hc.tidy.enter s.room s.session
    pairs := (Sessions.pairs_enter hpair).trans (hc.pairs.cons _)
    sent := hc.sent }

/-- What is due to a socket is sent to it. -/
theorem sent_note (hr : r.toList =
      if (c.eventsAt k).any (·.2.ends) then [] else repliesTo [(stamp, e)]) (j : Nat) :
    (c.note k stamp e r).sentTo j = repliesTo ((c.note k stamp e r).eventsAt j) := by
  by_cases hj : j = k
  · rw [hj, sentTo_note_self, eventsAt_note_self, repliesTo_append, hc.sent, hr]
  · rw [sentTo_note_of_ne hj, eventsAt_note_of_ne hj, hc.sent]

theorem quiet_note (hk : c.Knows k) (ha : k ∉ c.arriving) {j : Nat}
    (hj : ¬c.Knows j ∨ j ∈ c.arriving) : (c.note k stamp e r).eventsAt j = [] := by
  have hne : j ≠ k := by
    rintro rfl
    exact hj.elim (· hk) ha
  rw [eventsAt_note_of_ne hne, hc.quiet j hj]

/-- Something happens at a socket that is served, and it goes on to be served. -/
theorem stay (stamp : List Char) (hs : (k, s) ∈ c.hall.seats) (he : e.ends = false) :
    (c.note k stamp e (e.reply? stamp)).Sound := by
  obtain ⟨hk, ha, hany⟩ := hc.knows hs
  exact { hc with
    quiet := fun j => hc.quiet_note (List.mem_map_of_mem hk) ha
    mem_seats := by
      intro x
      rw [mem_served_note, ← hc.mem_seats, he]
      simp [note]
    sent := hc.sent_note (by simp [hany, repliesTo, he]) }

/-- The service to a socket ends. -/
theorem leave (stamp : List Char) (hs : (k, s) ∈ c.hall.seats) (he : e.ends = true) :
    ({ c with hall := c.hall.dismiss k s }.note k stamp e none).Sound := by
  obtain ⟨hk, ha, hany⟩ := hc.knows hs
  -- the other seats are those with another session
  have hothers : (c.hall.seats.map (·.2.pair)).filter (· != s.pair) =
      (c.hall.seats.filter (·.1 != k)).map (·.2.pair) := by
    rw [List.filter_map]
    congr 1
    refine List.filter_congr fun y hy => ?_
    have hiff : y.2.pair = s.pair ↔ y.1 = k :=
      ⟨fun h => congrArg Prod.fst (hc.eq_of_pair (hc.knows hy).1 hk h),
        fun h => congrArg (·.2.pair) (hc.eq_of_socket (hc.knows hy).1 hk h)⟩
    simp [bne, Bool.beq_eq_decide_eq, hiff]
  exact {
    sockets := hc.sockets
    sessions := hc.sessions
    lt_next := hc.lt_next
    quiet := fun j => hc.quiet_note (r := none) (List.mem_map_of_mem hk) ha
    seats_nodup := hc.seats_nodup.filter _
    mem_seats := by
      intro x
      rw [mem_served_note, he]
      simp only [note, Hall.dismiss, List.mem_filter, hc.mem_seats, bne_iff_ne, and_true, ne_eq]
      rfl
    tidy := hc.tidy.leave s.room s.session
    pairs := by
      show (c.hall.sessions.leave s.room s.session).pairs.Perm _
      rw [hc.tidy.pairs_leave]
      exact (hc.pairs.filter _).trans (.of_eq hothers)
    sent := hc.sent_note (by simp [hany, repliesTo, he]) }

/-- Something happens at a socket to which the service has ended. -/
theorem ignore (stamp : List Char) (e : SocketEvent) (hk : c.Knows k) (ha : k ∉ c.arriving)
    (hs : ∀ s, (k, s) ∉ c.hall.seats) : (c.note k stamp e none).Sound := by
  obtain ⟨y, hy, rfl⟩ := List.mem_map.mp hk
  have hany : (c.eventsAt y.1).any (·.2.ends) = true := by
    refine Bool.not_eq_false _ ▸ fun hany => hs y.2 ?_
    exact (hc.mem_seats y).mpr (mem_served.mpr ⟨hy, ha, hany⟩)
  exact { hc with
    quiet := fun j => hc.quiet_note hk ha
    mem_seats := by
      intro x
      rw [mem_served_note, ← hc.mem_seats]
      refine ⟨fun hx => ⟨hx, fun heq => hs x.2 ?_⟩, And.left⟩
      exact heq.1 ▸ hx
    sent := hc.sent_note (by rw [if_pos hany]; rfl) }

end Sound

/-- **Every move keeps the sessions in step with the sockets**, and sends what is due. -/
theorem sound_step (h : c.step m = some c') (hc : c.Sound) : c'.Sound := by
  cases does_of_step h with
  | arrive k room hk => exact hc.arrive room hk
  | enter k s hk hs => exact hc.enter hk hs
  | stayed stamp k e s hs he => exact hc.stay stamp hs he
  | left stamp k e s hs he => exact hc.leave stamp hs he
  | unheard stamp k e hk ha hs => exact hc.ignore stamp e hk ha hs

theorem sound_steps (h : c.steps ms = some c') (hc : c.Sound) : c'.Sound :=
  Moves.invariant (fun _ _ _ hs hstep => sound_step hstep hs) h hc

/-! ### The end of the service -/

/-- **The service to a socket ends with the first event that ends it**, and with nothing else. -/
theorem served_step (h : c.step m = some c') (hx : x ∈ c.served) :
    x ∉ c'.served ↔ ∃ stamp e, m = .happen stamp x.1 e ∧ e.ends = true := by
  obtain ⟨hcame, ha, hany⟩ := mem_served.mp hx
  -- after an event at a socket, whatever else becomes of the hall
  have hnote : ∀ {d : HallCourse} {stamp k e r}, x ∈ d.served →
      (x ∉ (d.note k stamp e r).served ↔
        ∃ stamp' e', HallMove.happen stamp k e = .happen stamp' x.1 e' ∧ e'.ends = true) := by
    intro d stamp k e r hd
    rw [mem_served_note, and_iff_right hd, not_not]
    constructor
    · rintro ⟨rfl, he⟩
      exact ⟨stamp, e, rfl, he⟩
    · rintro ⟨stamp', e', heq, he⟩
      cases heq
      exact ⟨rfl, he⟩
  cases does_of_step h with
  | arrive k room hk =>
    refine ⟨fun hnot => (hnot (mem_served.mpr ⟨.tail _ hcame, fun hmem => ?_, hany⟩)).elim, nofun⟩
    obtain heq | hmem := List.mem_cons.mp hmem
    · exact hk (heq ▸ List.mem_map_of_mem hcame)
    · exact ha hmem
  | enter k s hk hs =>
    refine ⟨fun hnot => (hnot (mem_served.mpr ⟨hcame, fun hmem => ?_, hany⟩)).elim, nofun⟩
    exact ha (List.mem_filter.mp hmem).1
  | stayed | left | unheard => exact hnote hx

/-- The service to a socket has ended. -/
def Left (c : HallCourse) (x : Nat × Seat) : Prop :=
  x ∈ c.came ∧ (c.eventsAt x.1).any (·.2.ends) = true

theorem Left.not_served (h : c.Left x) : x ∉ c.served := fun hx => by
  have hany := (mem_served.mp hx).2.2
  simp [h.2] at hany

theorem Left.note (h : c.Left x) : (c.note k stamp e r).Left x := by
  refine ⟨h.1, ?_⟩
  by_cases hx : x.1 = k
  · rw [← hx, eventsAt_note_self, List.any_append, h.2, Bool.true_or]
  · rw [eventsAt_note_of_ne hx, h.2]

/-- What has happened at a socket has happened. -/
theorem left_step (h : c.step m = some c') (hx : c.Left x) : c'.Left x := by
  cases does_of_step h with
  | arrive => exact ⟨.tail _ hx.1, hx.2⟩
  | enter => exact hx
  | stayed | unheard => exact hx.note
  | left => exact Left.note hx

theorem left_steps (h : c.steps ms = some c') (hx : c.Left x) : c'.Left x :=
  Moves.invariant (P := (Left · x)) (fun _ _ _ hs hstep => left_step hstep hs) h hx

/-! ### At every moment -/

/-- What is true of a course at every moment. -/
structure Attentive (c : HallCourse) : Prop where
  /-- What was sent to a socket is what is due to the events at it. -/
  replies : ∀ k, c.sentTo k = repliesTo (c.eventsAt k)
  /-- The session of a socket is remembered from when it is entered until an event ends the
  service. -/
  registered : ∀ x ∈ c.came, x.2.pair ∈ c.hall.sessions.pairs ↔
    x.1 ∉ c.arriving ∧ (c.eventsAt x.1).any (·.2.ends) = false
  /-- Nothing else is remembered, and nothing twice. -/
  pairs : c.hall.sessions.pairs.Nodup ∧ c.hall.sessions.pairs.Perm (c.served.map (·.2.pair))
  /-- A session is taken out by the event that ends the service, and by nothing else. -/
  removed : ∀ m c', c.step m = some c' → ∀ x ∈ c.served, x.2.pair ∉ c'.hall.sessions.pairs ↔
    ∃ stamp e, m = .happen stamp x.1 e ∧ e.ends = true
  /-- It never comes back, so it is taken out once. -/
  gone : ∀ x ∈ c.came, (c.eventsAt x.1).any (·.2.ends) = true → ∀ ms c', c.steps ms = some c' →
    x.2.pair ∉ c'.hall.sessions.pairs
  /-- Each of the two counts is right at the moment at which it is taken. -/
  counts : c.hall.sessions.connections = c.served.length ∧
    c.hall.sessions.roomCount = (c.served.map (·.2.room)).dedup.length
  /-- The health report, if nothing happens between its two counts. -/
  health : ∀ stamp, c.hall.health stamp = Value.compact (.record
    [("connections", .ofNat c.served.length),
      ("rooms", .ofNat (c.served.map (·.2.room)).dedup.length),
      ("status", .ofString "UP"), ("timestamp", .string stamp)])
  /-- Once the service to every socket has ended, nobody is counted. -/
  empty : (∀ x ∈ c.came, (c.eventsAt x.1).any (·.2.ends) = true) →
    c.hall.sessions.connections = 0 ∧ c.hall.sessions.roomCount = 0

namespace Sound

variable (hc : c.Sound)
include hc

theorem seats_perm : c.hall.seats.Perm c.served :=
  (List.perm_ext_iff_of_nodup hc.seats_nodup ((List.Nodup.of_map _ hc.sockets).filter _)).mpr
    hc.mem_seats

theorem pairs_perm : c.hall.sessions.pairs.Perm (c.served.map (·.2.pair)) :=
  hc.pairs.trans (hc.seats_perm.map _)

theorem connections_eq : c.hall.sessions.connections = c.served.length := by
  rw [← Sessions.length_pairs, hc.pairs_perm.length_eq, List.length_map]

theorem roomCount_eq :
    c.hall.sessions.roomCount = (c.served.map (·.2.room)).dedup.length := by
  have hrooms : (c.hall.sessions.pairs.map (·.1)).Perm (c.served.map (·.2.room)) := by
    simpa [Seat.pair, Function.comp_def] using hc.pairs_perm.map (·.1)
  rw [hc.tidy.roomCount_eq, hrooms.dedup.length_eq]

theorem attentive : c.Attentive where
  replies := hc.sent
  registered := fun x hx => by
    rw [hc.mem_pairs hx, mem_served, and_iff_right hx]
  pairs := by
    refine ⟨hc.pairs.nodup_iff.mpr ?_, hc.pairs_perm⟩
    refine List.Nodup.map_on (fun x hx y hy hpair => ?_) hc.seats_nodup
    exact hc.eq_of_pair (hc.knows hx).1 (hc.knows hy).1 hpair
  removed := by
    intro m c' h x hx
    have hcame : x ∈ c'.came := by
      have hx := (mem_served.mp hx).1
      cases does_of_step h with
      | arrive => exact .tail _ hx
      | enter | stayed | left | unheard => exact hx
    rw [(sound_step h hc).mem_pairs hcame, served_step h hx]
  gone := by
    intro x hx hany ms c' h
    have hleft := left_steps h ⟨hx, hany⟩
    rw [(sound_steps h hc).mem_pairs hleft.1]
    exact hleft.not_served
  counts := ⟨hc.connections_eq, hc.roomCount_eq⟩
  health := fun stamp => by
    rw [Hall.health, hc.connections_eq, hc.roomCount_eq]
  empty := by
    intro hall
    have hnone : c.served = [] := List.eq_nil_iff_forall_not_mem.mpr fun x hx =>
      Left.not_served ⟨(mem_served.mp hx).1, hall x (mem_served.mp hx).1⟩ hx
    rw [hc.connections_eq, hc.roomCount_eq, hnone]
    exact ⟨rfl, rfl⟩

end Sound

/-- **The service is attentive** at every moment, however many sockets there are and in whatever
order things happen at them. -/
theorem attentive_of_steps (h : ({} : HallCourse).steps ms = some c) : c.Attentive :=
  (sound_steps h sound_start).attentive

/-! ### Two sockets in a room -/

/-- Two sockets come to room one, and the service to the second one begins first. It is sent a reply
and goes, while the first one stays. -/
def gathering : List HallMove :=
  [.arrive 5 ['1'], .arrive 3 ['1'], .enter 3, .enter 5, .happen [] 3 (.text [] true),
    .happen [] 3 .close]

/-- The hall when one of the two has gone. -/
def gathered : HallCourse := (({} : HallCourse).steps gathering).get (by decide)

theorem steps_gathering : ({} : HallCourse).steps gathering = some gathered :=
  (Option.some_get _).symm

/-- The socket that goes was sent a reply. One connection and one room are counted, and the session
that is remembered is that of the socket that stays. -/
theorem attentive_of_gathering : ({} : HallCourse).steps gathering = some gathered ∧
    gathered.sentTo 3 = [.error malformed] ∧
    gathered.hall.sessions.connections = 1 ∧ gathered.hall.sessions.roomCount = 1 ∧
    gathered.hall.sessions.pairs.Perm [(['1'], 0)] ∧
    ∀ ms c, gathered.steps ms = some c → (['1'], 1) ∉ c.hall.sessions.pairs := by
  have hatt := attentive_of_steps steps_gathering
  have hserved : gathered.served = [(5, ⟨['1'], 0⟩)] := by decide
  have hpairs := hatt.pairs.2
  rw [hserved] at hpairs
  refine ⟨steps_gathering, hatt.replies 3, by decide, by decide, hpairs, ?_⟩
  exact hatt.gone (3, ⟨['1'], 1⟩) (by decide) (by decide)

end HallCourse

end LoadRig
