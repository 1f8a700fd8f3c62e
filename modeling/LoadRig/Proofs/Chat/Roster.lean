import LoadRig.Proofs.Chat.Sessions
import LoadRig.Proofs.Moves
import LoadRig.Word
/-!
# The course of the open sessions

Anybody may join a room and anybody may leave one in the name of any session, at any time and in any
order. A join is two moves, because the number of the session is taken before the session is entered,
and other joins and leaves may come in between. A leave is one move. It may name a room that nobody
has entered, a number that nobody has got yet, a session of another room, or one that has left before.

`SessionCourse` is what is remembered of the sessions, together with the joins so far and with what
has happened to the rooms. From the latter alone one can tell which sessions should be open: those
that were entered and for which no leave with their own room and number came afterwards. The store
has the same sessions open, its two counts are the counts of these, and every other leave leaves it as
it is.

Numbers are counted up from zero. They are words of sixty-four bits, so the number of joins is bounded
where it matters that they fit.

## Main definitions

* `LoadRig.RoomEvent`, `LoadRig.openAfter` — what has happened, and which sessions are open then.
* `LoadRig.SessionCourse`, `LoadRig.SessionMove`
* `LoadRig.SessionCourse.step`, `LoadRig.SessionCourse.steps` — what moves make of a course.
* `LoadRig.SessionCourse.WellKept` — what is true of a course at every moment.

## Main results

* `LoadRig.openAfter_entered`, `LoadRig.openAfter_left` — one more thing happens.
* `LoadRig.SessionCourse.does_of_step` — what a move can make of a course.
* `LoadRig.SessionCourse.sound_step`, `LoadRig.SessionCourse.sound_steps` — the invariant.
* `LoadRig.SessionCourse.wellKept_of_steps` — what is true at every moment.
-/

namespace LoadRig

/-! ### What has happened -/

/-- What happens to a room: a session is entered, or somebody leaves in the name of a session. -/
inductive RoomEvent where
  | entered (room : List Char) (id : Nat)
  | left (room : List Char) (id : Nat)
deriving DecidableEq

/-- The sessions that were entered and for which nobody has left their own room since. -/
def openAfter : List RoomEvent → List (List Char × Nat)
  | [] => []
  | .entered room id :: es =>
    if .left room id ∈ es then openAfter es else (room, id) :: openAfter es
  | .left _ _ :: es => openAfter es

section Events

variable {es fs : List RoomEvent} {room : List Char} {id : Nat}

/-- What happens later takes sessions out and brings others in. -/
theorem openAfter_append (es fs : List RoomEvent) :
    openAfter (es ++ fs) =
      (openAfter es).filter (fun p => .left p.1 p.2 ∉ fs) ++ openAfter fs := by
  induction es with
  | nil => rfl
  | cons e es ih =>
    cases e with
    | left r i => exact ih
    | entered r i =>
      rw [List.cons_append, openAfter, openAfter, ih]
      by_cases hes : .left r i ∈ es
      · rw [if_pos hes, if_pos (List.mem_append_left fs hes)]
      · by_cases hfs : .left r i ∈ fs
        · rw [if_neg hes, if_pos (List.mem_append_right es hfs),
            List.filter_cons_of_neg (by simpa using hfs)]
        · have hnot : .left r i ∉ es ++ fs := fun hmem => (List.mem_append.mp hmem).elim hes hfs
          rw [if_neg hes, if_neg hnot, List.filter_cons_of_pos (by simpa using hfs),
            List.cons_append]

/-- A session that is entered is open. -/
theorem openAfter_entered (es : List RoomEvent) (room : List Char) (id : Nat) :
    openAfter (es ++ [.entered room id]) = openAfter es ++ [(room, id)] := by
  rw [openAfter_append]
  simp [openAfter]

/-- A session whose own room is left is not open any more, and all others are. -/
theorem openAfter_left (es : List RoomEvent) (room : List Char) (id : Nat) :
    openAfter (es ++ [.left room id]) = (openAfter es).filter (· != (room, id)) := by
  rw [openAfter_append, openAfter, openAfter, List.append_nil]
  refine List.filter_congr fun p _ => ?_
  simp [bne, Bool.beq_eq_decide_eq, Prod.ext_iff]

/-- **Which sessions are open**: those that were entered and have not left their room since. -/
theorem mem_openAfter : (room, id) ∈ openAfter es ↔
    ∃ before after, es = before ++ .entered room id :: after ∧ .left room id ∉ after := by
  constructor
  · intro hmem
    induction es with
    | nil => cases hmem
    | cons e es ih =>
      by_cases hrest : (room, id) ∈ openAfter es
      · obtain ⟨before, after, rfl, hnot⟩ := ih hrest
        exact ⟨e :: before, after, rfl, hnot⟩
      · cases e with
        | left r i => exact absurd hmem hrest
        | entered r i =>
          rw [openAfter] at hmem
          split at hmem
          · exact absurd hmem hrest
          · next hnot =>
            rcases List.mem_cons.mp hmem with heq | hmem
            · cases heq
              exact ⟨[], es, rfl, hnot⟩
            · exact absurd hmem hrest
  · rintro ⟨before, after, rfl, hnot⟩
    rw [openAfter_append, openAfter, if_neg hnot]
    exact List.mem_append_right _ (List.mem_cons_self)

theorem entered_of_mem_openAfter (h : (room, id) ∈ openAfter es) : .entered room id ∈ es := by
  obtain ⟨before, after, rfl, -⟩ := mem_openAfter.mp h
  simp

/-- A session that has left its room and was not entered again is not open. -/
theorem not_mem_openAfter_of_left (h : .entered room id ∉ fs) :
    (room, id) ∉ openAfter (es ++ .left room id :: fs) := by
  rw [openAfter_append, List.mem_append, not_or]
  constructor
  · simp
  · intro hmem
    exact h (entered_of_mem_openAfter hmem)

end Events

/-! ### The course -/

/-- The open sessions, the joins so far, and what has happened to the rooms. -/
structure SessionCourse where
  sessions : Sessions := {}
  /-- The joins that have got a number, in order, each with its room. -/
  joins : List (List Char × Nat) := []
  /-- The joins among them whose session is not entered yet. -/
  pending : List (List Char × Nat) := []
  events : List RoomEvent := []

/-- What can be done to the sessions. -/
inductive SessionMove where
  /-- Somebody begins to join a room and gets the number of the new session. -/
  | number (room : List Char)
  /-- The session of a join is entered, and the number is returned. -/
  | enter (room : List Char) (id : Nat)
  /-- Somebody leaves a room in the name of a session. -/
  | leave (room : List Char) (id : Nat)

namespace SessionCourse

/-- What a move makes of a course; nothing if the move cannot happen. -/
def step (c : SessionCourse) : SessionMove → Option SessionCourse
  | .number room =>
    let (id, sessions) := c.sessions.allocate
    some { c with
      sessions
      joins := c.joins ++ [(room, id)]
      pending := (room, id) :: c.pending }
  | .enter room id =>
    if (room, id) ∈ c.pending then
      some { c with
        sessions := c.sessions.enter room id
        pending := c.pending.erase (room, id)
        events := c.events ++ [.entered room id] }
    else none
  | .leave room id =>
    some { c with
      sessions := c.sessions.leave room id
      events := c.events ++ [.left room id] }

/-- What a list of moves makes of a course. -/
def steps (c : SessionCourse) (ms : List SessionMove) : Option SessionCourse :=
  Moves.follow step c ms

variable {c c' : SessionCourse} {m : SessionMove} {ms : List SessionMove} {room : List Char}
  {id : Nat}

/-- A join that nobody interrupts. -/
theorem steps_join (c : SessionCourse) (room : List Char) :
    (c.steps [.number room, .enter room c.sessions.next]).map (·.sessions) =
      some (c.sessions.join room).2 := by
  simp [steps, Moves.follow, step, Sessions.join, Sessions.allocate]

/-! ### The invariant -/

/-- What every move keeps. The store has those sessions open that should be. -/
structure Sound (c : SessionCourse) : Prop where
  /-- The numbers are counted up from zero. -/
  numbers : c.joins.map (·.2) = List.range c.sessions.next
  pending_nodup : c.pending.Nodup
  pending_joins : ∀ p ∈ c.pending, p ∈ c.joins
  /-- Only a session with a number is entered, and it is not entered again. -/
  entered : ∀ room id, .entered room id ∈ c.events → (room, id) ∈ c.joins ∧ (room, id) ∉ c.pending
  tidy : c.sessions.Tidy
  pairs : c.sessions.pairs.Perm (openAfter c.events)
  open_nodup : (openAfter c.events).Nodup

theorem sound_start : ({} : SessionCourse).Sound where
  numbers := rfl
  pending_nodup := .nil
  pending_joins := nofun
  entered := nofun
  tidy := ⟨.nil, nofun⟩
  pairs := .refl _
  open_nodup := .nil

namespace Sound

variable (hc : c.Sound)
include hc

theorem joins_nodup : (c.joins.map (·.2)).Nodup := by
  rw [hc.numbers]
  exact List.nodup_range

/-- A join has a number below the next one. -/
theorem lt_next (h : (room, id) ∈ c.joins) : id < c.sessions.next := by
  have hmem : id ∈ c.joins.map (·.2) := List.mem_map_of_mem h
  rw [hc.numbers] at hmem
  exact List.mem_range.mp hmem

theorem length_joins : c.joins.length = c.sessions.next := by
  have hlen := congrArg List.length hc.numbers
  simpa using hlen

theorem mem_pairs_iff : (room, id) ∈ c.sessions.pairs ↔ (room, id) ∈ openAfter c.events :=
  hc.pairs.mem_iff

theorem joined_of_open (h : (room, id) ∈ openAfter c.events) : (room, id) ∈ c.joins :=
  (hc.entered room id (entered_of_mem_openAfter h)).1

/-- A number belongs to one join. -/
theorem room_unique {other : List Char} (h : (room, id) ∈ c.joins) (h' : (other, id) ∈ c.joins) :
    room = other :=
  congrArg Prod.fst (List.inj_on_of_nodup_map hc.joins_nodup h h' rfl)

/-- A join gets the next number. -/
theorem number (room : List Char) :
    Sound { c with
      sessions := c.sessions.allocate.2
      joins := c.joins ++ [(room, c.sessions.next)]
      pending := (room, c.sessions.next) :: c.pending } := by
  have hnew : (room, c.sessions.next) ∉ c.joins := fun hmem => Nat.lt_irrefl _ (hc.lt_next hmem)
  refine { hc with numbers := ?_, pending_nodup := ?_, pending_joins := ?_, entered := ?_, tidy := ?_ }
  · show (c.joins ++ [(room, c.sessions.next)]).map (·.2) = List.range (c.sessions.next + 1)
    rw [List.map_append, hc.numbers, List.range_succ]
    rfl
  · exact List.nodup_cons.mpr ⟨fun hmem => hnew (hc.pending_joins _ hmem), hc.pending_nodup⟩
  · intro p hp
    rcases List.mem_cons.mp hp with rfl | hp
    · exact List.mem_append_right _ (List.mem_singleton_self _)
    · exact List.mem_append_left _ (hc.pending_joins p hp)
  · intro r i hmem
    obtain ⟨hjoin, hnot⟩ := hc.entered r i hmem
    refine ⟨List.mem_append_left _ hjoin, fun hp => ?_⟩
    rcases List.mem_cons.mp hp with heq | hp
    · exact hnew (heq ▸ hjoin)
    · exact hnot hp
  · exact ⟨hc.tidy.nodup, hc.tidy.ne_nil⟩

/-- The session of a join is entered. -/
theorem enter (h : (room, id) ∈ c.pending) :
    Sound { c with
      sessions := c.sessions.enter room id
      pending := c.pending.erase (room, id)
      events := c.events ++ [.entered room id] } := by
  have hnot : (room, id) ∉ openAfter c.events := fun hmem =>
    (hc.entered room id (entered_of_mem_openAfter hmem)).2 h
  have hpairs : (room, id) ∉ c.sessions.pairs := fun hmem => hnot (hc.mem_pairs_iff.mp hmem)
  refine { hc with
    pending_nodup := hc.pending_nodup.erase _, pending_joins := ?_, entered := ?_
    tidy := hc.tidy.enter room id, pairs := ?_, open_nodup := ?_ }
  · intro p hp
    exact hc.pending_joins p (List.mem_of_mem_erase hp)
  · intro r i hmem
    rcases List.mem_append.mp hmem with hmem | hmem
    · obtain ⟨hjoin, hfree⟩ := hc.entered r i hmem
      exact ⟨hjoin, fun hp => hfree (List.mem_of_mem_erase hp)⟩
    · cases List.mem_singleton.mp hmem
      exact ⟨hc.pending_joins _ h, hc.pending_nodup.not_mem_erase⟩
  · rw [openAfter_entered]
    exact (Sessions.pairs_enter hpairs).trans
      ((hc.pairs.cons _).trans (List.perm_append_singleton _ _).symm)
  · rw [openAfter_entered]
    exact List.nodup_append_comm.mp (List.nodup_cons.mpr ⟨hnot, hc.open_nodup⟩)

/-- Somebody leaves a room. -/
theorem leave (room : List Char) (id : Nat) :
    Sound { c with
      sessions := c.sessions.leave room id
      events := c.events ++ [.left room id] } := by
  refine { hc with entered := ?_, tidy := hc.tidy.leave room id, pairs := ?_, open_nodup := ?_ }
  · intro r i hmem
    rcases List.mem_append.mp hmem with hmem | hmem
    · exact hc.entered r i hmem
    · cases List.mem_singleton.mp hmem
  · rw [openAfter_left]
    show (c.sessions.leave room id).pairs.Perm _
    rw [hc.tidy.pairs_leave]
    exact hc.pairs.filter _
  · rw [openAfter_left]
    exact hc.open_nodup.filter _

end Sound

/-- **Every move keeps the store in step with what has happened.** -/
theorem sound_step (h : c.step m = some c') (hc : c.Sound) : c'.Sound := by
  cases m with
  | number room =>
    cases h
    exact hc.number room
  | enter room id =>
    obtain ⟨hp, hc'⟩ := Option.ite_none_right_eq_some.mp h
    cases hc'
    exact hc.enter hp
  | leave room id =>
    cases h
    exact hc.leave room id

theorem sound_steps (h : c.steps ms = some c') (hc : c.Sound) : c'.Sound :=
  Moves.invariant (fun _ _ _ hs hstep => sound_step hstep hs) h hc

/-! ### At every moment -/

/-- What is true of a course at every moment. -/
structure WellKept (c : SessionCourse) : Prop where
  /-- No two joins get the same number, and every number is a word of sixty-four bits. -/
  distinct : (c.joins.map (·.2)).Nodup
  words : (∀ p ∈ c.joins, p.2 < wideLimit) ∧ c.sessions.next < wideLimit
  /-- Without anybody in between, the two moves of a join are one. -/
  join : ∀ room, (c.steps [.number room, .enter room c.sessions.next]).map (·.sessions) =
    some (c.sessions.join room).2
  /-- Every room is listed once, with at least one session and with none twice. -/
  rooms : (c.sessions.rooms.map (·.1)).Nodup ∧ ∀ r ∈ c.sessions.rooms, r.2 ≠ [] ∧ r.2.Nodup
  /-- No session is in two rooms. -/
  one_room : ∀ r ∈ c.sessions.rooms, ∀ r' ∈ c.sessions.rooms, ∀ id ∈ r.2, id ∈ r'.2 → r = r'
  /-- Remembered are those sessions that were entered and have not left their room since. -/
  remembered : ∀ room id, (∃ r ∈ c.sessions.rooms, r.1 = room ∧ id ∈ r.2) ↔
    ∃ before after, c.events = before ++ .entered room id :: after ∧ .left room id ∉ after
  /-- The two counts are the number of these sessions and the number of their rooms. -/
  counts : c.sessions.connections = (openAfter c.events).length ∧
    c.sessions.roomCount = ((openAfter c.events).map (·.1)).dedup.length
  /-- Leaving changes something exactly if the session is open in that room. -/
  leaves : ∀ room id, c.sessions.leave room id = c.sessions ↔ (room, id) ∉ openAfter c.events
  /-- So nothing changes if nobody is in the room, -/
  unknown_room : ∀ room id, (∀ r ∈ c.sessions.rooms, r.1 ≠ room) →
    c.sessions.leave room id = c.sessions
  /-- if no join has got the number, or its session is not entered yet, -/
  unknown_session : ∀ room id, (∀ r, .entered r id ∉ c.events) →
    c.sessions.leave room id = c.sessions
  /-- if the number is that of a session of another room, -/
  other_room : ∀ room other id, (other, id) ∈ c.joins → other ≠ room →
    c.sessions.leave room id = c.sessions
  /-- or if the session has left the room before. -/
  repeated : ∀ room id before after, c.events = before ++ .left room id :: after →
    .entered room id ∉ after → c.sessions.leave room id = c.sessions

namespace Sound

variable (hc : c.Sound)
include hc

theorem pairs_nodup : c.sessions.pairs.Nodup := hc.pairs.nodup_iff.mpr hc.open_nodup

/-- No room lists a session twice. -/
theorem nodup_of_mem_rooms {r : List Char × List Nat} (hr : r ∈ c.sessions.rooms) :
    r.2.Nodup := by
  have hsub : (r.2.map (r.1, ·)).Sublist c.sessions.pairs := by
    rw [Sessions.pairs, Sessions.pairsOf, List.flatMap]
    exact List.sublist_flatten_of_mem (List.mem_map_of_mem hr)
  exact (hc.pairs_nodup.sublist hsub).of_map

theorem joined_of_mem_rooms {r : List Char × List Nat} (hr : r ∈ c.sessions.rooms)
    (hid : id ∈ r.2) : (r.1, id) ∈ c.joins :=
  hc.joined_of_open (hc.mem_pairs_iff.mp (Sessions.mem_pairsOf.mpr ⟨r, hr, rfl, hid⟩))

/-- No session is in two rooms. -/
theorem eq_of_mem_rooms {r r' : List Char × List Nat} (hr : r ∈ c.sessions.rooms)
    (hr' : r' ∈ c.sessions.rooms) (hid : id ∈ r.2) (hid' : id ∈ r'.2) : r = r' := by
  have hroom : r.1 = r'.1 :=
    hc.room_unique (hc.joined_of_mem_rooms hr hid) (hc.joined_of_mem_rooms hr' hid')
  exact List.inj_on_of_nodup_map hc.tidy.nodup hr hr' hroom

/-- Leaving changes something exactly if the session is open in that room. -/
theorem leave_eq_self_iff (room : List Char) (id : Nat) :
    c.sessions.leave room id = c.sessions ↔ (room, id) ∉ openAfter c.events := by
  rw [hc.tidy.leave_eq_self_iff, hc.mem_pairs_iff]

theorem wellKept (hfew : c.joins.length < wideLimit) : c.WellKept where
  distinct := hc.joins_nodup
  words := by
    rw [hc.length_joins] at hfew
    exact ⟨fun p hp => Nat.lt_trans (hc.lt_next hp) hfew, hfew⟩
  join := steps_join c
  rooms := ⟨hc.tidy.nodup, fun r hr => ⟨hc.tidy.ne_nil r hr, hc.nodup_of_mem_rooms hr⟩⟩
  one_room := by
    intro r hr r' hr' id hid hid'
    exact hc.eq_of_mem_rooms hr hr' hid hid'
  remembered := by
    intro room id
    rw [← mem_openAfter, ← hc.mem_pairs_iff]
    exact Sessions.mem_pairsOf.symm
  counts := by
    constructor
    · rw [← Sessions.length_pairs, hc.pairs.length_eq]
    · rw [hc.tidy.roomCount_eq, (hc.pairs.map (·.1)).dedup.length_eq]
  leaves := hc.leave_eq_self_iff
  unknown_room := by
    intro room id hroom
    refine (hc.tidy.leave_eq_self_iff room id).mpr fun hmem => ?_
    obtain ⟨r, hr, heq, -⟩ := Sessions.mem_pairsOf.mp hmem
    exact hroom r hr heq
  unknown_session := by
    intro room id hid
    refine (hc.leave_eq_self_iff room id).mpr fun hmem => ?_
    exact hid room (entered_of_mem_openAfter hmem)
  other_room := by
    intro room other id hjoin hne
    refine (hc.leave_eq_self_iff room id).mpr fun hmem => ?_
    exact hne (hc.room_unique hjoin (hc.joined_of_open hmem))
  repeated := by
    intro room id before after heq hnot
    refine (hc.leave_eq_self_iff room id).mpr ?_
    rw [heq]
    exact not_mem_openAfter_of_left hnot

end Sound

/-- **The sessions are well kept** at every moment, whoever joins and leaves in whatever order. -/
theorem wellKept_of_steps (h : ({} : SessionCourse).steps ms = some c)
    (hfew : c.joins.length < wideLimit) : c.WellKept :=
  (sound_steps h sound_start).wellKept hfew

/-! ### A busy moment -/

/-- Two join room one and are entered in the other order, after somebody has left in the name of the
first one. A third joins room two and leaves it, first in the name of a session of room one, and then
twice in its own. -/
def bustle : List SessionMove :=
  [.number ['1'], .number ['1'], .leave ['1'] 0, .enter ['1'] 1, .enter ['1'] 0, .number ['2'],
    .enter ['2'] 2, .leave ['2'] 1, .leave ['2'] 2, .leave ['2'] 2]

/-- The sessions after that. -/
def settled : SessionCourse := (({} : SessionCourse).steps bustle).get (by decide)

/-- The two sessions of room one are open, and it is the only room. -/
theorem wellKept_settled : ({} : SessionCourse).steps bustle = some settled ∧
    settled.joins.length < wideLimit ∧
    settled.sessions.connections = 2 ∧ settled.sessions.roomCount = 1 ∧
    settled.sessions.leave ['2'] 2 = settled.sessions ∧
    settled.sessions.leave ['2'] 1 = settled.sessions ∧
    settled.sessions.leave ['1'] 1 ≠ settled.sessions := by
  have hsteps : ({} : SessionCourse).steps bustle = some settled := (Option.some_get _).symm
  have hfew : settled.joins.length < wideLimit := by decide
  have hkept := wellKept_of_steps hsteps hfew
  have hopen : openAfter settled.events = [(['1'], 1), (['1'], 0)] := by decide
  refine ⟨hsteps, hfew, ?_, ?_, ?_, ?_, ?_⟩
  · rw [hkept.counts.1, hopen]
    rfl
  · rw [hkept.counts.2, hopen]
    decide
  · exact hkept.unknown_room ['2'] 2 (by decide)
  · exact hkept.other_room ['2'] ['1'] 1 (by decide) (by decide)
  · exact fun heq => (hkept.leaves ['1'] 1).mp heq (by rw [hopen]; decide)

end SessionCourse

end LoadRig
