/-!
# Open sessions

The service numbers its sessions from zero and remembers which are open in which room. A room is
remembered only while a session is open in it. Joining takes two steps, because another session may
join between them: a number is taken, and then it is entered under the room.

The numbers are words of sixty-four bits in use, and the one after the last is zero again. Here they go
on without a limit, so what is said of them holds of fewer than `wideLimit` sessions.

## Main definitions

* `LoadRig.Sessions` — the next number and the open sessions of every room.
* `LoadRig.Sessions.allocate`, `LoadRig.Sessions.enter` — the two steps of joining.
* `LoadRig.Sessions.join`, `LoadRig.Sessions.leave`
* `LoadRig.Sessions.connections`, `LoadRig.Sessions.roomCount`
-/

namespace LoadRig

/-- The open sessions of every room, and the number of the next session. -/
structure Sessions where
  next : Nat := 0
  rooms : List (List Char × List Nat) := []
deriving DecidableEq, Repr, Inhabited

namespace Sessions

/-- Takes a number for a new session. It is the number in use as long as it is below `wideLimit`; there
the numbers in use begin again from zero. -/
def allocate (s : Sessions) : Nat × Sessions := (s.next, { s with next := s.next + 1 })

/-- Enters a session under a room, in a new entry if the room has none. -/
def enterRooms (room : List Char) (id : Nat) :
    List (List Char × List Nat) → List (List Char × List Nat)
  | [] => [(room, [id])]
  | r :: rs =>
    if r.1 = room then (room, if r.2.contains id then r.2 else id :: r.2) :: rs
    else r :: enterRooms room id rs

/-- Enters a session under a room. -/
def enter (s : Sessions) (room : List Char) (id : Nat) : Sessions :=
  { s with rooms := enterRooms room id s.rooms }

/-- Opens a session in a room. -/
def join (s : Sessions) (room : List Char) : Nat × Sessions :=
  let (id, s) := s.allocate
  (id, s.enter room id)

/-- Takes a session out of a room; a room without sessions goes with its last one. -/
def leaveRooms (room : List Char) (id : Nat) :
    List (List Char × List Nat) → List (List Char × List Nat)
  | [] => []
  | r :: rs =>
    if r.1 = room then
      match r.2.filter (· != id) with
      | [] => rs
      | ids => (room, ids) :: rs
    else r :: leaveRooms room id rs

/-- Closes a session of a room. One that is not open there changes nothing. -/
def leave (s : Sessions) (room : List Char) (id : Nat) : Sessions :=
  { s with rooms := leaveRooms room id s.rooms }

/-- The number of open sessions. -/
def connections (s : Sessions) : Nat := s.rooms.foldr (fun r n => r.2.length + n) 0

/-- The number of rooms with an open session. -/
def roomCount (s : Sessions) : Nat := s.rooms.length

end Sessions

end LoadRig
