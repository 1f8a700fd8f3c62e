import LoadRig.Link.Target
import LoadRig.Socket.Client
import LoadRig.Socket.Handshake
/-!
# Scripted peers

The far end of a socket can be a script: it answers the handshake with a given text, or agrees and
answers each text frame with a given list of frames, or keeps silent. A text frame behind the end of
its script comes back as it is. A silent peer never answers the handshake, or it agrees, reads
nothing, and goes away after a while; until then a message waits in the buffer between the two ends,
if it fits.

Frames arrive at once, but not at the very moment in which a message is sent: a message that may
take no time is given up before its answer comes.

## Main definitions

* `LoadRig.Socket.Peer` — a script.
* `LoadRig.Socket.Talk` — a socket to a peer; `LoadRig.Socket.Talk.send` and its like.
* `LoadRig.Socket.Wire` — what a wire leads to.
* `LoadRig.Socket.Desk` — a wire, and the socket in use.
-/

namespace LoadRig.Socket

/-- What a script lets the peer do after a text frame. -/
inductive PeerFrame where
  | frame (f : Inbound)
  /-- The connection ends without notice. -/
  | drop
deriving DecidableEq, Repr

/-- The far end of one connection. -/
inductive Peer where
  /-- Answers the handshake with a text and goes away. -/
  | answers (text : String)
  /-- Agrees and answers the frames one after the other. -/
  | talks (script : List (List PeerFrame))
  /-- Never answers the handshake. -/
  | silent
  /-- Agrees and goes away without reading anything. -/
  | leaves
deriving DecidableEq, Repr

/-- The time in milliseconds after which a peer that reads nothing goes away. -/
def leavesAfter : Nat := 40

/-- The number of bytes that fit between the two ends of a socket. -/
def bufferSize : Nat := 212992

/-- The reason of a writing that fails because the peer is gone. -/
def brokenPipe : String := "IO error: Broken pipe (os error 32)"

/-- A socket to a peer. -/
structure Talk where
  client : Client := {}
  /-- What is left of the script; nothing for a peer that does not read. -/
  script : Option (List (List PeerFrame))
  /-- The age of the connection in milliseconds. -/
  age : Nat := 0

namespace Talk

/-- What a frame of the peer is for the reader. -/
def inbound : PeerFrame → Inbound
  | .frame f => f
  | .drop => .finish

/-- Lets time go by. A peer that does not read goes away in time. -/
def wait (t : Talk) (millis : Nat) : Talk :=
  let age := t.age + millis
  if t.script.isNone && leavesAfter ≤ age then
    { t with age, client := t.client.readAll [.finish] }
  else { t with age }

/-- The end of a message that was written: what the reader decides, or else that time is up. -/
def conclude (t : Talk) (timeout : Duration) : Answer × Talk :=
  match t.client.make .look with
  | (client, some a) => (a, { t with client })
  | (_, none) =>
    let (client, a) := t.client.make (.expire timeout)
    (a.getD (.error .closed), { t with client })

/-- A message to a peer that reads and follows its script. -/
def sendToReader (t : Talk) (script : List (List PeerFrame)) (payload : String)
    (timeout : Duration) : Answer × Talk :=
  let (reaction, rest) : List PeerFrame × List (List PeerFrame) := match script with
    | [] => ([.frame (.text payload)], [])
    | r :: rest => (r, rest)
  let frames := reaction.map inbound
  let t := { t with client := (t.client.make (.wrote none)).1, script := some rest }
  if timeout.toNanos = 0 then
    let (a, t) := t.conclude timeout
    (a, { t with client := t.client.readAll frames })
  else { t with client := t.client.readAll frames }.conclude timeout

/-- A message to a peer that does not read. One that does not fit into the buffer is never written;
one that does waits until its time is up or the peer goes away. -/
def sendToBuffer (t : Talk) (payload : String) (timeout : Duration) : Answer × Talk :=
  if bufferSize < payload.utf8ByteSize then
    let (client, a) := t.client.make (.wrote (some brokenPipe))
    (a.getD (.error .closed), { t with client }.wait (leavesAfter - t.age))
  else
    let t := { t with client := (t.client.make (.wrote none)).1 }
    (t.wait (min timeout.toMillis (leavesAfter - t.age))).conclude timeout

/-- A message from beginning to end. -/
def send (t : Talk) (payload : String) (timeout : Duration) : Answer × Talk :=
  match t.client.make (.send payload) with
  | (client, some a) => (a, { t with client })
  | (client, none) =>
    let t := { t with client }
    match t.script with
    | some script => t.sendToReader script payload timeout
    | none => t.sendToBuffer payload timeout

/-- Closes the socket. -/
def close (t : Talk) : Talk := { t with client := (t.client.make .close).1 }

end Talk

/-- What an opening ends in, if it ever ends. -/
inductive Opening where
  | opened (t : Talk)
  | failed (e : ConnectError)
  | never

/-- Shakes hands with a peer at an address that can be dialled. -/
def Peer.shake (url : String) : Peer → Opening
  | answers text =>
    match answerFault? none text with
    | some reason => .failed (refused url reason)
    | none => .failed (refused url unfinished)
  | talks script => .opened { script := some script }
  | silent => .never
  | leaves => .opened { script := none }

/-- What a wire leads to. -/
inductive Wire where
  /-- There is no network. -/
  | cut
  /-- Nobody is there. -/
  | deserted
  /-- Peers, one for each connection; behind the last one, peers that echo. -/
  | peers (ps : List Peer)

/-- The peers still to come, and the socket in use. -/
structure Desk where
  target : Target
  wire : Wire
  talk : Option Talk := none

namespace Desk

/-- Opens a socket to a room. A socket that is in use is replaced, if the opening succeeds. -/
def dial (d : Desk) (room : Nat) : Opening × Desk :=
  let url := d.target.endpoint room
  match d.wire with
  | .cut => (.failed (withoutNetwork url), d)
  | .deserted => (.failed ((addressFault? .byScheme url).getD (refused url nobodyThere)), d)
  | .peers ps =>
    match addressFault? .byScheme url with
    | some e => (.failed e, d)
    | none =>
      let (p, rest) := match ps with
        | [] => (Peer.talks [], [])
        | p :: rest => (p, rest)
      let d := { d with wire := .peers rest }
      match p.shake url with
      | .opened t => (.opened t, { d with talk := some t })
      | o => (o, d)

/-- Lets time go by. -/
def wait (d : Desk) (millis : Nat) : Desk := { d with talk := d.talk.map (·.wait millis) }

/-- Sends a message, if there is a socket. -/
def send (d : Desk) (payload : String) (timeout : Duration) : Option (Answer × Desk) :=
  d.talk.map fun t =>
    let (a, t) := t.send payload timeout
    (a, { d with talk := some t })

/-- Closes the socket, if there is one. -/
def close (d : Desk) : Option Desk := d.talk.map fun t => { d with talk := some t.close }

/-- Whether the socket is open, if there is one. -/
def isOpen? (d : Desk) : Option Bool := d.talk.map (·.client.isOpen)

end Desk

end LoadRig.Socket
