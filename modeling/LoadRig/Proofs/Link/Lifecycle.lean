import Mathlib.Logic.Function.Basic
import LoadRig.Clock.Session
import LoadRig.Proofs.Moves
/-!
# The life of a connection

The state of a connection is kept twice: in what is recorded of it, and in its link, which may close
by itself. `Connection.Coherent` says how the two go together while nobody is opening the
connection. All that can be done with a connection keeps this, and from it follows what the owner of
a connection may rely on.

A `Switchboard` holds any number of connections, in numbered places, and the counters that they are
all charged to. An opening takes time, so it is two moves, and other connections go on in between.
What the other side does is not known: an opening ends as it likes, a message is answered as the
link likes, and a link is lost when it likes. A link that is closed when it is handed over is one
that is lost at once. A link that was lost stays lost.

## Main definitions

* `LoadRig.Connection.Coherent`, `LoadRig.Connection.Dependable`
* `LoadRig.Switchboard`, `LoadRig.LineMove`
* `LoadRig.Switchboard.step`, `LoadRig.Switchboard.steps` — what moves make of a switchboard.
* `LoadRig.Switchboard.Orderly` — what is true of a switchboard after some moves.

## Main results

* `LoadRig.Connection.Coherent.dependable` — what the owner of a connection may rely on.
* `LoadRig.Clock.Session.send_of_not_open` — a connection that is not open does not ask its link.
* `LoadRig.Switchboard.steps_connect`, `LoadRig.Switchboard.steps_reconnect` — calls in one piece.
* `LoadRig.Switchboard.sound_step`, `LoadRig.Switchboard.sound_steps` — the invariant.
* `LoadRig.Switchboard.orderly_of_steps` — what is true at every moment.
-/

namespace LoadRig

/-! ### One connection -/

namespace Connection

variable {c : Connection}

/-- What is recorded of a connection goes together with its link. A connection that is closed may
still have its link, but not an open one. -/
def Coherent (c : Connection) : Prop :=
  match c.link with
  | none => c.recorded ≠ .connecting ∧ c.recorded ≠ .opened
  | some l => c.recorded = .opened ∨ c.recorded = .closed ∧ l.isOpen = false

/-- What the owner of a connection may rely on. -/
structure Dependable (c : Connection) : Prop where
  ne_connecting : c.state ≠ .connecting
  isOpen_iff : c.isOpen = true ↔ ∃ l, c.link = some l ∧ l.isOpen = true
  link_eq_none : c.state = .disconnected ∨ c.state = .failed → c.link = none

theorem Coherent.dependable (h : c.Coherent) : c.Dependable := by
  rcases c with ⟨room, _ | l, recorded⟩
  · obtain ⟨hconnecting, hopened⟩ := h
    exact ⟨hconnecting, by simpa [isOpen, state] using hopened, fun _ => rfl⟩
  · obtain rfl | ⟨rfl, ho⟩ := h
    · cases ho : l.isOpen <;> constructor <;> simp [isOpen, state, ho]
    · replace ho : l.isOpen = false := ho
      constructor <;> simp [isOpen, state, ho]

theorem coherent_disconnected (room : Nat) : (disconnected room).Coherent := ⟨nofun, nofun⟩

/-- An opening ends with an open link or, if there was no link, with none. -/
theorem coherent_settle (r : Except ConnectError Unit) (h : c.link = none) :
    (c.settle r).Coherent := by
  cases r with
  | ok => exact .inl rfl
  | error e => simp [Coherent, settle, h]

theorem Coherent.afterExchange (h : c.Coherent) {linkOpen : Bool} (ho : c.isOpen = true) :
    (c.afterExchange linkOpen).Coherent := by
  obtain ⟨l, hl, hlo⟩ := h.dependable.isOpen_iff.mp ho
  have hrec : c.recorded = .opened := by simpa [Coherent, hl, hlo] using h
  cases linkOpen <;> simp [Coherent, Connection.afterExchange, hl, hrec]

theorem Coherent.lose (h : c.Coherent) : c.lose.Coherent := by
  rcases c with ⟨room, _ | l, recorded⟩
  · exact h
  · exact h.imp_right fun ⟨hr, _⟩ => ⟨hr, rfl⟩

theorem coherent_close (c : Connection) : c.close.Coherent := ⟨nofun, nofun⟩

end Connection

namespace Line

variable {l : Line}

/-- A connection that is not open refuses a message, whatever its link would make of it. -/
theorem exchange_of_not_open (h : l.connection.isOpen = false) (answer : Except SendError String)
    (linkOpen : Bool) : l.exchange answer linkOpen = (.error .closed, l) := by
  simp [exchange, h]

/-- A message changes nothing but the connection, and of the connection not the room. -/
theorem exchange_keeps (l : Line) (answer : Except SendError String) (linkOpen : Bool) :
    (l.exchange answer linkOpen).2.counters = l.counters ∧
      (l.exchange answer linkOpen).2.connection.room = l.connection.room := by
  rw [exchange]
  split <;> exact ⟨rfl, rfl⟩

theorem coherent_exchange (h : l.connection.Coherent) (answer : Except SendError String)
    (linkOpen : Bool) : (l.exchange answer linkOpen).2.connection.Coherent := by
  rw [exchange]
  split
  · next ho => exact h.afterExchange ho
  · exact h

end Line

/-- A connection that is not open refuses a message without asking the service behind its link, and
without any time going by. -/
theorem Clock.Session.send_of_not_open (s : Clock.Session) (place : Nat) {c : Connection}
    (h : c.isOpen = false) (payload : String) (timeout : Duration) :
    s.send place c payload timeout = (.error .closed, s.put place c) := by
  simp [send, h, Line.exchange]

/-! ### Any number of connections -/

/-- What is under way at a connection that is being opened. -/
inductive Opening where
  | first
  | repair
deriving DecidableEq, Repr

/-- A connection, and the opening that is under way at it. -/
structure Place where
  connection : Connection
  opening : Option Opening := none
deriving DecidableEq, Repr

/-- Connections in numbered places, and the counters that they are charged to. -/
structure Switchboard where
  counters : Counters := {}
  places : Nat → Option Place := fun _ => none

/-- What can happen to connections. -/
inductive LineMove where
  /-- There is a new connection, which is not opened. -/
  | adopt (place room : Nat)
  /-- A connection is opened for the first time. -/
  | dial (place room : Nat)
  /-- A connection is repaired. -/
  | redial (place : Nat)
  /-- An opening ends. -/
  | settle (place : Nat) (r : Except ConnectError Unit)
  /-- A message is sent; if the link is asked, it answers so and is then open or not. -/
  | send (place : Nat) (answer : Except SendError String) (linkOpen : Bool)
  | close (place : Nat)
  /-- The link of a connection closes by itself. -/
  | lose (place : Nat)

/-- Whether a move is a successful opening. -/
def LineMove.opens : LineMove → Bool
  | settle _ (.ok _) => true
  | _ => false

/-- Whether a move is the beginning of a repair. -/
def LineMove.repairs : LineMove → Bool
  | redial _ => true
  | _ => false

/-- What is true of a connection in a place: while it is being opened it has no link. -/
def Place.Coherent (p : Place) : Prop :=
  match p.opening with
  | none => p.connection.Coherent
  | some _ => p.connection.link = none

namespace Switchboard

/-- The connection in a place that is in nobody's hands, as it is charged. -/
def idle? (b : Switchboard) (i : Nat) : Option Line :=
  match b.places i with
  | some ⟨c, none⟩ => some ⟨c, b.counters⟩
  | _ => none

/-- The connection in a place that is being opened, as it is charged, and what is under way. -/
def opening? (b : Switchboard) (i : Nat) : Option (Line × Opening) :=
  match b.places i with
  | some ⟨c, some o⟩ => some (⟨c, b.counters⟩, o)
  | _ => none

/-- Puts a connection into a place. -/
def set (b : Switchboard) (i : Nat) (l : Line) (opening : Option Opening) : Switchboard :=
  { counters := l.counters, places := Function.update b.places i (some ⟨l.connection, opening⟩) }

/-- Leaves a place without a connection. -/
def clear (b : Switchboard) (i : Nat) : Switchboard :=
  { b with places := Function.update b.places i none }

/-- An opening has ended. There is no connection if the first opening has failed. -/
def settled (b : Switchboard) (i : Nat) (l : Line) :
    Opening → Except ConnectError Unit → Switchboard
  | .first, .error _ => b.clear i
  | _, r => b.set i (l.settle r) none

/-- What a move makes of a switchboard; nothing if the move cannot happen. -/
def step (b : Switchboard) : LineMove → Option Switchboard
  | .adopt i room =>
    if b.places i = none then some (b.set i ⟨.disconnected room, b.counters⟩ none) else none
  | .dial i room =>
    if b.places i = none then
      some (b.set i ⟨(Connection.disconnected room).dial, b.counters⟩ (some .first))
    else none
  | .redial i => (b.idle? i).map fun l => b.set i l.redial (some .repair)
  | .settle i r => (b.opening? i).map fun (l, o) => b.settled i l o r
  | .send i answer linkOpen =>
    (b.idle? i).map fun l => b.set i (l.exchange answer linkOpen).2 none
  | .close i => (b.idle? i).map fun l => b.set i l.close none
  | .lose i =>
    (b.idle? i).map fun l => b.set i { l with connection := l.connection.lose } none

/-- What a list of moves makes of a switchboard. -/
def steps (b : Switchboard) (ms : List LineMove) : Option Switchboard := Moves.follow step b ms

variable {b b' : Switchboard} {m : LineMove} {ms : List LineMove} {i j : Nat} {p : Place}

theorem idle?_eq_some {l : Line} (h : b.idle? i = some l) :
    b.places i = some ⟨l.connection, none⟩ ∧ l.counters = b.counters := by
  rw [idle?] at h
  split at h
  · next c hc => cases h; exact ⟨hc, rfl⟩
  · cases h

theorem opening?_eq_some {l : Line} {o : Opening} (h : b.opening? i = some (l, o)) :
    b.places i = some ⟨l.connection, some o⟩ ∧ l.counters = b.counters := by
  rw [opening?] at h
  split at h
  · next c o' hc => cases h; exact ⟨hc, rfl⟩
  · cases h

theorem places_set_self (b : Switchboard) (i : Nat) (l : Line) (opening : Option Opening) :
    (b.set i l opening).places i = some ⟨l.connection, opening⟩ := by
  simp [set]

/-- What is in a place after a connection was put into some place. -/
theorem places_set {l : Line} {opening : Option Opening}
    (h : (b.set i l opening).places j = some p) :
    i = j ∧ ⟨l.connection, opening⟩ = p ∨ b.places j = some p := by
  by_cases hj : i = j
  · subst hj
    rw [places_set_self] at h
    exact .inl ⟨rfl, Option.some.inj h⟩
  · exact .inr (by simpa [set, Ne.symm hj] using h)

theorem places_clear (h : (b.clear i).places j = some p) : b.places j = some p := by
  by_cases hj : j = i
  · subst hj
    simp [clear] at h
  · simpa [clear, hj] using h

/-! ### Single moves -/

/-- What a move can make of a switchboard: a connection is put into a place, or one is given up
whose first opening has failed. -/
inductive Does (b : Switchboard) : LineMove → Switchboard → Prop
  | adopt (i room : Nat) (hi : b.places i = none) :
      Does b (.adopt i room) (b.set i ⟨.disconnected room, b.counters⟩ none)
  | dial (i room : Nat) (hi : b.places i = none) :
      Does b (.dial i room)
        (b.set i ⟨(Connection.disconnected room).dial, b.counters⟩ (some .first))
  | redial (i : Nat) (l : Line) (hi : b.idle? i = some l) :
      Does b (.redial i) (b.set i l.redial (some .repair))
  | opened (i : Nat) (l : Line) (o : Opening) (hi : b.opening? i = some (l, o)) :
      Does b (.settle i (.ok ())) (b.set i (l.settle (.ok ())) none)
  | failed (i : Nat) (l : Line) (e : ConnectError) (hi : b.opening? i = some (l, .repair)) :
      Does b (.settle i (.error e)) (b.set i (l.settle (.error e)) none)
  | givenUp (i : Nat) (l : Line) (e : ConnectError) (hi : b.opening? i = some (l, .first)) :
      Does b (.settle i (.error e)) (b.clear i)
  | send (i : Nat) (l : Line) (answer : Except SendError String) (linkOpen : Bool)
      (hi : b.idle? i = some l) :
      Does b (.send i answer linkOpen) (b.set i (l.exchange answer linkOpen).2 none)
  | close (i : Nat) (l : Line) (hi : b.idle? i = some l) : Does b (.close i) (b.set i l.close none)
  | lose (i : Nat) (l : Line) (hi : b.idle? i = some l) :
      Does b (.lose i) (b.set i { l with connection := l.connection.lose } none)

theorem does_of_step (h : b.step m = some b') : Does b m b' := by
  cases m with
  | adopt i room =>
    obtain ⟨hi, hb'⟩ := Option.ite_none_right_eq_some.mp h
    rw [← Option.some.inj hb']
    exact .adopt i room hi
  | dial i room =>
    obtain ⟨hi, hb'⟩ := Option.ite_none_right_eq_some.mp h
    rw [← Option.some.inj hb']
    exact .dial i room hi
  | redial i =>
    obtain ⟨l, hl, rfl⟩ := Option.map_eq_some_iff.mp h
    exact .redial i l hl
  | settle i r =>
    obtain ⟨⟨l, o⟩, hl, rfl⟩ := Option.map_eq_some_iff.mp h
    cases r with
    | ok =>
      cases o with
      | first => exact .opened i l .first hl
      | repair => exact .opened i l .repair hl
    | error e =>
      cases o with
      | first => exact .givenUp i l e hl
      | repair => exact .failed i l e hl
  | send i answer linkOpen =>
    obtain ⟨l, hl, rfl⟩ := Option.map_eq_some_iff.mp h
    exact .send i l answer linkOpen hl
  | close i =>
    obtain ⟨l, hl, rfl⟩ := Option.map_eq_some_iff.mp h
    exact .close i l hl
  | lose i =>
    obtain ⟨l, hl, rfl⟩ := Option.map_eq_some_iff.mp h
    exact .lose i l hl

/-! ### Calls in one piece -/

theorem set_set (b : Switchboard) (i : Nat) (l l' : Line) (o o' : Option Opening) :
    (b.set i l o).set i l' o' = b.set i l' o' := by
  simp [set, Function.update_idem]

theorem opening?_set (b : Switchboard) (i : Nat) (l : Line) (o : Opening) :
    (b.set i l (some o)).opening? i = some (l, o) := by
  simp [opening?, set]

/-- A repair that nothing comes between. -/
theorem steps_reconnect {l : Line} (h : b.idle? i = some l) (r : Except ConnectError Unit) :
    b.steps [.redial i, .settle i r] = some (b.set i (l.reconnect r) none) := by
  simp [steps, Moves.follow, step, h, opening?_set, settled, set_set, Line.reconnect]

/-- A first opening that nothing comes between. -/
theorem steps_connect (h : b.places i = none) (room : Nat) (r : Except ConnectError Unit) :
    b.steps [.dial i room, .settle i r] =
      match Line.connect room b.counters r with
      | .ok l => some (b.set i l none)
      | .error _ => some b := by
  cases r with
  | ok u => simp [steps, Moves.follow, step, h, opening?_set, settled, set_set, Line.connect]
  | error e =>
    have hclear : (b.set i ⟨(Connection.disconnected room).dial, b.counters⟩
        (some .first)).clear i = b := by
      simp only [set, clear, Function.update_idem]
      rw [← h, Function.update_eq_self]
    simp [steps, Moves.follow, step, h, opening?_set, settled, hclear, Line.connect]

/-! ### The invariant -/

/-- What every move keeps, where `ms` are the moves so far: every connection goes together with its
link and is to the room that it was made for, and the counters tell how many openings succeeded and
how many repairs were begun. -/
structure Sound (ms : List LineMove) (b : Switchboard) : Prop where
  coherent : ∀ i p, b.places i = some p → p.Coherent
  asked : ∀ i p, b.places i = some p →
    .adopt i p.connection.room ∈ ms ∨ .dial i p.connection.room ∈ ms
  connections_eq : b.counters.connections = ms.countP (·.opens)
  reconnections_eq : b.counters.reconnections = ms.countP (·.repairs)

theorem sound_start : ({} : Switchboard).Sound [] := ⟨nofun, nofun, rfl, rfl⟩

/-- A connection is put into a place, and the counters are charged for the move. -/
theorem Sound.set (h : b.Sound ms) (m : LineMove) (i : Nat) {l : Line} {opening : Option Opening}
    (hl : Place.Coherent ⟨l.connection, opening⟩)
    (hroom : .adopt i l.connection.room ∈ ms ++ [m] ∨ .dial i l.connection.room ∈ ms ++ [m])
    (hopens : l.counters.connections = b.counters.connections + [m].countP (·.opens))
    (hrepairs : l.counters.reconnections = b.counters.reconnections + [m].countP (·.repairs)) :
    (b.set i l opening).Sound (ms ++ [m]) where
  coherent := by
    intro j p hj
    obtain ⟨-, rfl⟩ | hp := places_set hj
    · exact hl
    · exact h.coherent j p hp
  asked := by
    intro j p hj
    obtain ⟨rfl, rfl⟩ | hp := places_set hj
    · exact hroom
    · exact (h.asked j p hp).imp (List.mem_append_left _) (List.mem_append_left _)
  connections_eq := by
    rw [List.countP_append, ← h.connections_eq]
    exact hopens
  reconnections_eq := by
    rw [List.countP_append, ← h.reconnections_eq]
    exact hrepairs

/-- Something is done with a connection in its place, and it stays a connection to its room. -/
theorem Sound.change (h : b.Sound ms) (m : LineMove) {l l' : Line} {before after : Option Opening}
    (hi : b.places i = some ⟨l.connection, before⟩ ∧ l.counters = b.counters)
    (hl' : Place.Coherent ⟨l'.connection, after⟩) (hroom : l'.connection.room = l.connection.room)
    (hopens : l'.counters.connections = l.counters.connections + [m].countP (·.opens))
    (hrepairs : l'.counters.reconnections = l.counters.reconnections + [m].countP (·.repairs)) :
    (b.set i l' after).Sound (ms ++ [m]) := by
  obtain ⟨hp, hcounters⟩ := hi
  rw [hcounters] at hopens hrepairs
  refine h.set m i hl' ?_ hopens hrepairs
  rw [hroom]
  exact (h.asked i _ hp).imp (List.mem_append_left _) (List.mem_append_left _)

/-- **Every move keeps connections coherent and the counters right.** -/
theorem sound_step (h : b.step m = some b') (hb : b.Sound ms) : b'.Sound (ms ++ [m]) := by
  have hlast : m ∈ ms ++ [m] := List.mem_append_right _ (.head _)
  cases does_of_step h with
  | adopt i room hi =>
    exact hb.set _ i (Connection.coherent_disconnected room) (.inl hlast) rfl rfl
  | dial i room hi => exact hb.set _ i rfl (.inr hlast) rfl rfl
  | redial i l hi => exact hb.change _ (idle?_eq_some hi) rfl rfl rfl rfl
  | opened i l o hi =>
    have hlink := hb.coherent i _ (opening?_eq_some hi).1
    exact hb.change _ (opening?_eq_some hi) (Connection.coherent_settle (.ok ()) hlink) rfl rfl rfl
  | failed i l e hi =>
    have hlink := hb.coherent i _ (opening?_eq_some hi).1
    exact hb.change _ (opening?_eq_some hi) (Connection.coherent_settle (.error e) hlink) rfl rfl
      rfl
  | givenUp i l e hi =>
    refine ⟨fun j p hj => hb.coherent j p (places_clear hj), fun j p hj => ?_, ?_, ?_⟩
    · exact (hb.asked j p (places_clear hj)).imp (List.mem_append_left _) (List.mem_append_left _)
    · rw [List.countP_append, ← hb.connections_eq]; rfl
    · rw [List.countP_append, ← hb.reconnections_eq]; rfl
  | send i l answer linkOpen hi =>
    have hl := hb.coherent i _ (idle?_eq_some hi).1
    obtain ⟨hcounters, hroom⟩ := l.exchange_keeps answer linkOpen
    exact hb.change _ (idle?_eq_some hi) (Line.coherent_exchange hl answer linkOpen) hroom
      (congrArg (·.connections) hcounters) (congrArg (·.reconnections) hcounters)
  | close i l hi =>
    exact hb.change _ (idle?_eq_some hi) l.connection.coherent_close rfl rfl rfl
  | lose i l hi =>
    have hl := hb.coherent i _ (idle?_eq_some hi).1
    exact hb.change _ (idle?_eq_some hi) (Connection.Coherent.lose hl) rfl rfl rfl

theorem sound_steps {ns : List LineMove} (h : b.steps ns = some b') (hb : b.Sound ms) :
    b'.Sound (ms ++ ns) :=
  Moves.history _ (fun _ _ _ _ hs hstep => sound_step hstep hs) h hb

/-! ### Rooms -/

/-- A connection that somebody has, in a place, and the room that it is to. -/
def Has (b : Switchboard) (i room : Nat) : Prop :=
  ∃ p, b.places i = some p ∧ p.opening ≠ some .first ∧ p.connection.room = room

theorem has_set {room : Nat} {l : Line} {opening : Option Opening} (h : b.Has j room)
    (hl : i = j → opening ≠ some .first ∧ l.connection.room = room) :
    (b.set i l opening).Has j room := by
  by_cases hj : i = j
  · subst hj
    exact ⟨_, places_set_self b i l opening, hl rfl⟩
  · obtain ⟨p, hp, hrest⟩ := h
    exact ⟨p, by simpa [set, Ne.symm hj] using hp, hrest⟩

/-- **Nothing that happens changes the room of a connection** or takes the connection away from who
has it. -/
theorem has_step {room : Nat} (h : b.step m = some b') (hb : b.Has j room) : b'.Has j room := by
  obtain ⟨p, hp, hp', hroom⟩ := id hb
  -- a connection that is put back into the place it was in
  have hback : ∀ {i o} {l l' : Line}, b.places i = some ⟨l.connection, o⟩ →
      l'.connection.room = l.connection.room → i = j → l'.connection.room = room := by
    rintro i o l l' hi hl rfl
    rw [hp] at hi
    rw [hl, ← hroom, Option.some.inj hi]
  cases does_of_step h with
  | adopt i _ hi | dial i _ hi =>
    refine has_set hb ?_
    rintro rfl
    rw [hp] at hi
    cases hi
  | redial i l hi =>
    exact has_set hb fun hj => ⟨nofun, hback (idle?_eq_some hi).1 rfl hj⟩
  | opened i l _ hi | failed i l _ hi =>
    exact has_set hb fun hj => ⟨nofun, hback (opening?_eq_some hi).1 rfl hj⟩
  | givenUp i l e hi =>
    have hi := (opening?_eq_some hi).1
    refine ⟨p, ?_, hp', hroom⟩
    by_cases hj : j = i
    · subst hj
      rw [hp] at hi
      cases hi
      exact absurd rfl hp'
    · simpa [clear, hj] using hp
  | send i l answer linkOpen hi =>
    have hroom := (l.exchange_keeps answer linkOpen).2
    exact has_set hb fun hj => ⟨nofun, hback (idle?_eq_some hi).1 hroom hj⟩
  | close i l hi | lose i l hi =>
    exact has_set hb fun hj => ⟨nofun, hback (idle?_eq_some hi).1 rfl hj⟩

theorem has_steps {room : Nat} (h : b.steps ms = some b') (hb : b.Has j room) : b'.Has j room :=
  Moves.invariant (P := (Has · j room)) (fun _ _ _ hs hstep => has_step hstep hs) h hb

/-! ### At every moment -/

/-- What is true of a switchboard after the moves `ms`. -/
structure Orderly (ms : List LineMove) (b : Switchboard) : Prop where
  dependable : ∀ i c, b.places i = some ⟨c, none⟩ → c.Dependable
  /-- A connection is to the room that it was made for. -/
  asked : ∀ i c, b.places i = some ⟨c, none⟩ → .adopt i c.room ∈ ms ∨ .dial i c.room ∈ ms
  /-- Whatever happens, it stays a connection to that room. -/
  room : ∀ i c, b.places i = some ⟨c, none⟩ → ∀ ns b', b.steps ns = some b' →
    ∃ p, b'.places i = some p ∧ p.connection.room = c.room
  /-- A message on a connection that is not open is refused whatever the link would make of it, and
  nothing changes. -/
  refused : ∀ i c, b.places i = some ⟨c, none⟩ → c.isOpen = false → ∀ answer linkOpen,
    Line.exchange ⟨c, b.counters⟩ answer linkOpen = (.error .closed, ⟨c, b.counters⟩) ∧
      b.step (.send i answer linkOpen) = some b
  /-- A repair is counted when it is begun. -/
  redialed : ∀ i b', b.step (.redial i) = some b' → b'.counters = b.counters.addReconnection
  /-- A repair that fails leaves no link, and no opening is counted. -/
  failed : ∀ i c e b', b.places i = some ⟨c, some .repair⟩ →
    b.step (.settle i (.error e)) = some b' → b'.counters = b.counters ∧
      ∃ c', b'.places i = some ⟨c', none⟩ ∧ c'.link = none ∧ c'.state = .failed
  connections_eq : b.counters.connections = ms.countP (·.opens)
  reconnections_eq : b.counters.reconnections = ms.countP (·.repairs)

theorem set_idle {l : Line} (h : b.idle? i = some l) : b.set i l none = b := by
  obtain ⟨hp, hcounters⟩ := idle?_eq_some h
  rw [set, ← hp, Function.update_eq_self, hcounters]

theorem Sound.orderly (h : b.Sound ms) : b.Orderly ms where
  dependable := fun i c hc => Connection.Coherent.dependable (h.coherent i _ hc)
  asked := fun i _ hc => h.asked i _ hc
  room := by
    intro i c hc ns b' hns
    obtain ⟨p, hp, -, hroom⟩ := has_steps hns ⟨_, hc, nofun, rfl⟩
    exact ⟨p, hp, hroom⟩
  refused := by
    intro i c hc hopen answer linkOpen
    have hl : b.idle? i = some ⟨c, b.counters⟩ := by rw [idle?, hc]
    have hex : Line.exchange ⟨c, b.counters⟩ answer linkOpen = (.error .closed, ⟨c, b.counters⟩) :=
      Line.exchange_of_not_open hopen answer linkOpen
    refine ⟨hex, ?_⟩
    rw [step, hl, Option.map_some, hex, set_idle hl]
  redialed := by
    intro i b' hb'
    cases does_of_step hb' with
    | redial _ l hl =>
      rw [← (idle?_eq_some hl).2]
      rfl
  failed := by
    intro i c e b' hc hb'
    cases does_of_step hb' with
    | failed _ l _ hl =>
      obtain ⟨hp, hcounters⟩ := opening?_eq_some hl
      have hlink : l.connection.link = none := h.coherent i _ hp
      refine ⟨hcounters, _, places_set_self _ _ _ _, hlink, ?_⟩
      simp [Line.settle, Connection.settle, Connection.state, hlink]
    | givenUp _ l _ hl =>
      rw [(opening?_eq_some hl).1] at hc
      cases hc
  connections_eq := h.connections_eq
  reconnections_eq := h.reconnections_eq

/-- **Connections behave in an orderly way** at every moment, whatever is done with them and
whatever becomes of their links. -/
theorem orderly_of_steps (h : ({} : Switchboard).steps ms = some b) : b.Orderly ms :=
  (sound_steps h sound_start).orderly

/-! ### Two connections -/

/-- The link of a connection to room three is lost with a message on it. While the connection is
repaired another one is opened, to room five, and then the repair fails. -/
def mishap : List LineMove :=
  [.dial 0 3, .settle 0 (.ok ()), .send 0 (.error .closed) false, .redial 0, .dial 1 5,
    .settle 1 (.ok ()), .settle 0 (.error (.rejected "ws://host/room/3" "gone"))]

/-- The switchboard after the repair has failed. -/
def bereft : Switchboard := (({} : Switchboard).steps mishap).get (by decide)

theorem steps_mishap : ({} : Switchboard).steps mishap = some bereft := (Option.some_get _).symm

/-- Two connections were opened and one repair was begun. The first connection has failed: it is not
open and refuses a message. -/
theorem orderly_of_mishap : ({} : Switchboard).steps mishap = some bereft ∧
    bereft.counters.connections = 2 ∧ bereft.counters.reconnections = 1 ∧
    ∃ c, bereft.places 0 = some ⟨c, none⟩ ∧ c.state = .failed ∧ c.isOpen = false ∧
      bereft.step (.send 0 (.ok "too late") true) = some bereft := by
  have horderly := orderly_of_steps steps_mishap
  have hc : bereft.places 0 = some ⟨⟨3, none, .failed⟩, none⟩ := by decide
  refine ⟨steps_mishap, horderly.connections_eq, horderly.reconnections_eq, _, hc, by decide,
    by decide, ?_⟩
  exact (horderly.refused 0 _ hc (by decide) (.ok "too late") true).2

end Switchboard

end LoadRig
