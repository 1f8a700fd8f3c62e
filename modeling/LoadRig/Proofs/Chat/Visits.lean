import LoadRig.Chat.Visit
import LoadRig.Proofs.Chat.Hall
/-!
# Visits are courses

Whatever visitors do, the service behind them has gone a course: a visitor who opens a socket comes
and is entered at once, and all else that a visitor does is at most one event at a socket. So what is
true of every course is true of the service at any time. A visit with frames of one's own is given
the replies that are due to them.

## Main definitions

* `LoadRig.Visits.Follows`, `LoadRig.Visits.Reached` — the service has gone a course.

## Main results

* `LoadRig.Visits.Reached.enter`, `LoadRig.Visits.Reached.say`, `LoadRig.Visits.Reached.leave`,
  `LoadRig.Visits.Reached.vanish`, `LoadRig.Visits.Reached.call` — all that visitors do.
* `LoadRig.Visits.Reached.attentive` — what is true of the service behind them.
* `LoadRig.Visits.replies_call` — the replies in a visit.
-/

namespace LoadRig

namespace HallCourse

variable {c : HallCourse} {k : Nat}

/-- A socket that comes and is entered at once is welcome. -/
theorem steps_welcome (h : ¬c.Knows k) (room : List Char) :
    c.steps [.arrive k room, .enter k] = some { c with
      hall := c.hall.welcome k room
      came := (k, ⟨room, c.hall.sessions.next⟩) :: c.came
      arriving := c.arriving.filter (· != k) } := by
  simp [steps, Moves.follow, step, h, seatOf?, Hall.welcome, Sessions.join, Sessions.allocate]

end HallCourse

namespace Visits

variable {v : Visits} {stamp : List Char} {id k : Nat} {e : SocketEvent}

/-- One more event at a socket, with the replies so far. -/
def hear (stamp : List Char) (k : Nat) (acc : Visits × List Reply) (e : SocketEvent) :
    Visits × List Reply :=
  let (v, r) := acc.1.happen stamp k e
  (v, acc.2 ++ r.toList)

/-- A course that stands where visits stand: the hall is the same, nobody is on the way in, and the
numbers of the sockets are used up. -/
structure Follows (v : Visits) (c : HallCourse) : Prop where
  hall : c.hall = v.hall
  arriving : c.arriving = []
  came : ∀ x ∈ c.came, x.1 < v.sockets

/-- The service has gone some course. -/
def Reached (v : Visits) : Prop :=
  ∃ ms c, ({} : HallCourse).steps ms = some c ∧ v.Follows c

theorem reached_start : ({} : Visits).Reached := ⟨[], {}, rfl, rfl, rfl, nofun⟩

namespace Reached

variable (hv : v.Reached)
include hv

/-- The service does not ask who its visitors are. -/
theorem visitors (visitors : List (Nat × Visitor)) : Reached { v with visitors } := by
  obtain ⟨ms, c, hms, hall, harriving, hcame⟩ := hv
  exact ⟨ms, c, hms, hall, harriving, hcame⟩

theorem welcome (room : List Char) :
    Reached { v with hall := v.hall.welcome v.sockets room, sockets := v.sockets + 1 } := by
  obtain ⟨ms, c, hms, hall, harriving, hcame⟩ := hv
  have hnew : ¬c.Knows v.sockets := fun hmem => by
    obtain ⟨x, hx, heq⟩ := List.mem_map.mp hmem
    exact absurd (hcame x hx) (by simp [heq])
  refine ⟨_, _, (Moves.follow_append hms).trans (HallCourse.steps_welcome hnew room), ?_⟩
  exact {
    hall := by rw [← hall]
    arriving := by simp [harriving]
    came := List.forall_mem_cons.mpr
      ⟨Nat.lt_succ_self _, fun x hx => Nat.lt_succ_of_lt (hcame x hx)⟩ }

/-- What happens at a socket is a move of the course if the socket has come, and nothing else. -/
theorem happen (stamp : List Char) (k : Nat) (e : SocketEvent) :
    (v.happen stamp k e).1.Reached := by
  obtain ⟨ms, c, hms, hall, harriving, hcame⟩ := hv
  by_cases hk : c.Knows k
  · refine ⟨ms ++ [.happen stamp k e], c.deal stamp k e, ?_, ?_⟩
    · refine (Moves.follow_append hms).trans ?_
      simp [Moves.follow, HallCourse.step, hk, harriving]
    · exact ⟨by rw [Visits.happen, ← hall]; rfl, harriving, hcame⟩
  · have hc := HallCourse.sound_steps hms HallCourse.sound_start
    have hnone : v.hall.seat? k = none := by
      cases hs : v.hall.seat? k with
      | none => rfl
      | some s =>
        rw [← hall] at hs
        have hmem := (hc.knows (HallCourse.find?_eq_some_of_fst hs)).1
        exact absurd (List.mem_map_of_mem hmem) hk
    rw [Visits.happen, Hall.handle_of_none stamp hnone]
    exact ⟨ms, c, hms, hall, harriving, hcame⟩

theorem vanish {v' : Visits} (h : v.vanish stamp id = some v') :
    v'.Reached ∧ v'.sockets = v.sockets := by
  obtain ⟨x, -, rfl⟩ := Option.map_eq_some_iff.mp h
  exact ⟨(hv.happen stamp x.socket .finish).visitors _, rfl⟩

theorem enter (stamp : List Char) (id : Nat) (url : String) :
    (v.enter stamp id url).2.Reached := by
  rw [Visits.enter]
  split
  · exact hv
  · exact hv
  · next room _ _ =>
    -- whoever had the name before takes no number along
    obtain ⟨hw, hsockets⟩ : ((v.vanish stamp id).getD v).Reached ∧
        ((v.vanish stamp id).getD v).sockets = v.sockets := by
      cases h : v.vanish stamp id with
      | none => exact ⟨hv, rfl⟩
      | some v' => exact hv.vanish h
    have hwelcome := hw.welcome room
    rw [hsockets] at hwelcome
    exact hwelcome.visitors _

theorem say {text : String} {y : Socket.Answer × Visits} (h : v.say stamp id text = some y) :
    y.2.Reached := by
  obtain ⟨x, -, rfl⟩ := Option.map_eq_some_iff.mp h
  split
  · exact hv.visitors _
  · exact (hv.happen stamp x.socket (.text text.toList true)).visitors _

theorem leave {y : Bool × Visits} (h : v.leave stamp id = some y) : y.2.Reached := by
  obtain ⟨x, -, rfl⟩ := Option.map_eq_some_iff.mp h
  exact (hv.happen stamp x.socket .close).visitors _

/-- Several events at a socket, one after the other. -/
theorem foldl_hear (stamp : List Char) (k : Nat) (es : List SocketEvent) (rs : List Reply) :
    (es.foldl (hear stamp k) (v, rs)).1.Reached := by
  induction es generalizing v rs with
  | nil => exact hv
  | cons e es ih => exact ih (hv.happen stamp k e) _

theorem call (stamp room : List Char) (es : List SocketEvent) (farewell : SocketEvent) :
    (v.call stamp room es farewell).2.Reached :=
  ((hv.welcome room).foldl_hear stamp _ es []).happen stamp _ farewell

/-- **What is true of every course is true of the service behind visitors.** -/
theorem attentive : ∃ c : HallCourse, c.hall = v.hall ∧ c.Attentive := by
  obtain ⟨ms, c, hms, hall, -⟩ := hv
  exact ⟨c, hall, HallCourse.sound_steps hms HallCourse.sound_start |>.attentive⟩

end Reached

/-! ### The replies in a visit -/

theorem seat?_dismiss (h : Hall) (k : Nat) (s : Seat) : (h.dismiss k s).seat? k = none := by
  simp [Hall.seat?, Hall.dismiss]

theorem foldl_hear_of_none (stamp : List Char) (es : List SocketEvent) (rs : List Reply)
    (h : v.hall.seat? k = none) :
    (es.foldl (hear stamp k) (v, rs)).2 = rs := by
  induction es with
  | nil => rfl
  | cons e es ih =>
    rw [List.foldl_cons, hear, Visits.happen, Hall.handle_of_none stamp h]
    simpa using ih

theorem foldl_hear_of_some {s : Seat} (stamp : List Char) (es : List SocketEvent)
    (rs : List Reply) (h : v.hall.seat? k = some s) :
    (es.foldl (hear stamp k) (v, rs)).2 = rs ++ repliesTo (es.map (stamp, ·)) := by
  induction es generalizing rs with
  | nil => exact (List.append_nil rs).symm
  | cons e es ih =>
    rw [List.foldl_cons, List.map_cons, repliesTo, hear, Visits.happen]
    cases he : e.ends with
    | true =>
      rw [Hall.handle_of_ends stamp h he]
      exact (foldl_hear_of_none stamp es _ (seat?_dismiss _ _ _)).trans (by simp)
    | false =>
      rw [Hall.handle_of_not_ends stamp h he]
      exact (ih _).trans (by simp)

/-- **A visit is given the replies that are due to its frames**, in order. -/
theorem replies_call (stamp room : List Char) (v : Visits) (es : List SocketEvent)
    (farewell : SocketEvent) :
    (v.call stamp room es farewell).1.1 = repliesTo (es.map (stamp, ·)) := by
  have hseat : (v.hall.welcome v.sockets room).seat? v.sockets =
      some ⟨room, v.hall.sessions.next⟩ := by
    simp [Hall.seat?, Hall.welcome, Sessions.join, Sessions.allocate]
  exact (foldl_hear_of_some stamp es [] hseat).trans (List.nil_append _)

end Visits

end LoadRig
