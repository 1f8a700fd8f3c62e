import LoadRig.Chat.Hall
import LoadRig.Chat.Route
import LoadRig.Link.Target
import LoadRig.Socket.Client
import LoadRig.Socket.Handshake
/-!
# Visits to the chat service

The two ends of the sockets of a chat service together: visitors open sockets to rooms, send
messages, and leave with a word or without. What a visitor sends reaches the service at once, and
so does the reply. Visitors who do without the library may also send other frames.

## Main definitions

* `LoadRig.Visits` — the service and the sockets of its visitors.
* `LoadRig.Visits.enter`, `LoadRig.Visits.say`, `LoadRig.Visits.leave`, `LoadRig.Visits.vanish`
* `LoadRig.Visits.call` — a visit with frames of one's own.
-/

namespace LoadRig

open LoadRig.Socket

/-- A visitor: the number of the socket at the service, and its near end. -/
structure Visitor where
  socket : Nat
  client : Client := {}

/-- The service, its visitors by their names, and the number of the next socket. -/
structure Visits where
  hall : Hall := {}
  visitors : List (Nat × Visitor) := []
  sockets : Nat := 0

namespace Visits

/-- The visitor with a name. -/
def visitor? (v : Visits) (id : Nat) : Option Visitor :=
  (v.visitors.find? (·.1 == id)).map (·.2)

/-- Puts a visitor in the place of that name. -/
def put (v : Visits) (id : Nat) (x : Visitor) : Visits :=
  { v with visitors := (id, x) :: v.visitors.filter (·.1 != id) }

/-- Something happens at the service. -/
def happen (stamp : List Char) (v : Visits) (socket : Nat) (e : SocketEvent) :
    Visits × Option Reply :=
  let (hall, r) := v.hall.handle stamp socket e
  ({ v with hall }, r)

/-- The visitor goes without a word. -/
def vanish (stamp : List Char) (v : Visits) (id : Nat) : Option Visits :=
  (v.visitor? id).map fun x =>
    let (v, _) := v.happen stamp x.socket .finish
    { v with visitors := v.visitors.filter (·.1 != id) }

/-- Why a socket to an address of the service is not opened. -/
def obstacle? (url : String) : Option ConnectError :=
  match addressFault? .byScheme url, Uri.parse url.toList with
  | some e, _ => some e
  | none, .ok uri =>
    (Route.ofPath uri.path).refusal?.map fun status =>
      refused url ("HTTP error: " ++ Http.statusText status)
  | none, .error e => some (refused url ("HTTP format error: " ++ e.message))

/-- The room that an address leads to. -/
def roomAt? (url : String) : Option (List Char) :=
  match Uri.parse url.toList with
  | .ok uri =>
    match Route.ofPath uri.path with
    | .room name => some name
    | _ => none
  | .error _ => none

/-- A visitor opens a socket. One of the same name that was there before vanishes. -/
def enter (stamp : List Char) (v : Visits) (id : Nat) (url : String) :
    Except ConnectError Unit × Visits :=
  match obstacle? url, roomAt? url with
  | some e, _ => (.error e, v)
  | none, none => (.error (refused url unfinished), v)
  | none, some room =>
    let socket := v.sockets
    let v := (v.vanish stamp id).getD v
    ((.ok ()), { v with hall := v.hall.welcome socket room, sockets := socket + 1 }.put id { socket })

/-- A visitor sends a message and waits for the reply. -/
def say (stamp : List Char) (v : Visits) (id : Nat) (text : String) : Option (Answer × Visits) :=
  (v.visitor? id).map fun x =>
    match x.client.make (.send text) with
    | (client, some a) => (a, v.put id { x with client })
    | (client, none) =>
      let client := (client.make (.wrote none)).1
      let (v, reply) := v.happen stamp x.socket (.text text.toList true)
      let client := client.readAll (reply.map fun r => Inbound.text (String.ofList r.text)).toList
      let (client, a) := client.make .look
      (a.getD (.error .closed), v.put id { x with client })

/-- A visitor closes its socket, which may be closed already; the flag tells whether it is open
then. -/
def leave (stamp : List Char) (v : Visits) (id : Nat) : Option (Bool × Visits) :=
  (v.visitor? id).map fun x =>
    let client := (x.client.make .close).1
    let (v, _) := v.happen stamp x.socket .close
    (client.isOpen, v.put id { x with client })

/-- A visit with frames of one's own from beginning to end: the replies, and the service just before
the visitor leaves. -/
def call (stamp : List Char) (v : Visits) (room : List Char) (events : List SocketEvent)
    (farewell : SocketEvent) : (List Reply × Hall) × Visits :=
  let socket := v.sockets
  let v := { v with hall := v.hall.welcome socket room, sockets := socket + 1 }
  let (v, replies) := events.foldl
    (fun (acc : Visits × List Reply) e =>
      let (v, r) := acc.1.happen stamp socket e
      (v, acc.2 ++ r.toList)) (v, [])
  ((replies, v.hall), (v.happen stamp socket farewell).1)

end Visits

end LoadRig
