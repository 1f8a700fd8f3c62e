import LoadRig.Chat.Reply
import LoadRig.Chat.Sessions
/-!
# The chat service

The service holds any number of sockets at once. Each belongs to a room and has a session there for
as long as it is served. Every text frame is answered by one reply; other frames are passed over; a
close frame, a failure, the end of the stream and a reply that cannot be sent end the service to
that socket, and with it the session.

## Main definitions

* `LoadRig.Hall` — the sessions and the sockets with their seats.
* `LoadRig.SocketEvent` — what happens at a socket.
* `LoadRig.Hall.welcome`, `LoadRig.Hall.handle` — a new socket, and an event at one.
* `LoadRig.Hall.health` — the health report.
-/

namespace LoadRig

open LoadRig.Json

/-- What happens at a socket. -/
inductive SocketEvent where
  /-- A text frame; the flag tells whether its reply can be sent. -/
  | text (payload : List Char) (sendable : Bool)
  /-- A binary frame, a ping or a pong. -/
  | other
  | close
  | failure
  | finish
deriving DecidableEq, Repr

/-- The place of a socket that is served. -/
structure Seat where
  room : List Char
  session : Nat
deriving DecidableEq, Repr

/-- The sessions, and the sockets that are served with their seats. -/
structure Hall where
  sessions : Sessions := {}
  seats : List (Nat × Seat) := []
deriving DecidableEq, Repr, Inhabited

namespace Hall

/-- The seat of a socket, while it is served. -/
def seat? (h : Hall) (socket : Nat) : Option Seat :=
  (h.seats.find? (·.1 == socket)).map (·.2)

/-- Begins to serve a socket in a room. -/
def welcome (h : Hall) (socket : Nat) (room : List Char) : Hall :=
  let (session, sessions) := h.sessions.join room
  { sessions, seats := (socket, { room, session }) :: h.seats }

/-- Ends the service to a socket. -/
def dismiss (h : Hall) (socket : Nat) (s : Seat) : Hall :=
  { sessions := h.sessions.leave s.room s.session, seats := h.seats.filter (·.1 != socket) }

/-- What happens at a socket that is served, and the reply that is sent. -/
def handle (stamp : List Char) (h : Hall) (socket : Nat) (e : SocketEvent) : Hall × Option Reply :=
  match h.seat? socket with
  | none => (h, none)
  | some s =>
    match e with
    | .text payload true => (h, some (respond stamp payload))
    | .text _ false => (h.dismiss socket s, none)
    | .other => (h, none)
    | .close | .failure | .finish => (h.dismiss socket s, none)

/-- The health report, made at the moment written as `stamp`. The service counts the sessions first and
then, having let go of them, the rooms, so a socket can come or go between the two counts. This is the
report when none does; in general each count is that of its own moment. -/
def health (stamp : List Char) (h : Hall) : List Char :=
  Value.compact (.record [("connections", .ofNat h.sessions.connections),
    ("rooms", .ofNat h.sessions.roomCount), ("status", .ofString "UP"),
    ("timestamp", .string stamp)])

end Hall

end LoadRig
