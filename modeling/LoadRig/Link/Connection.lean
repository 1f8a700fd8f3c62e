import LoadRig.Counters
import LoadRig.Link.Error
/-!
# Connections

A sender owns one connection to its room. The connection has a link while it is in use, and the
link may close by itself, so whether the connection is open is decided by looking at the link. A
connection is repaired in place: the old link is dropped and a new one is opened for the same room.

Opening takes time. It is begun by `Connection.dial` or `Connection.redial` and ended by
`Connection.settle`; the owner does nothing else with the connection in between.

## Main definitions

* `LoadRig.Link`, `LoadRig.ConnectionState`, `LoadRig.Connection`
* `LoadRig.Connection.state`, `LoadRig.Connection.isOpen`
* `LoadRig.Line` — a connection and the counters that it is charged to.
* `LoadRig.Line.connect`, `LoadRig.Line.reconnect`, `LoadRig.Line.exchange`, `LoadRig.Line.close`
-/

namespace LoadRig

/-- One end of a channel, of which only this is known to its owner. -/
structure Link where
  isOpen : Bool
deriving DecidableEq, Repr, Inhabited

/-- What is known of a connection apart from its link. -/
inductive ConnectionState where
  | disconnected
  | connecting
  | opened
  | closed
  | failed
deriving DecidableEq, Repr, Inhabited

/-- The name of a state. -/
def ConnectionState.name : ConnectionState → String
  | disconnected => "Disconnected"
  | connecting => "Connecting"
  | opened => "Open"
  | closed => "Closed"
  | failed => "Failed"

/-- A connection to a room. `recorded` is its state as of the last thing that was done with it. -/
structure Connection where
  room : Nat
  link : Option Link
  recorded : ConnectionState
deriving DecidableEq, Repr, Inhabited

namespace Connection

/-- A connection that was never opened. -/
def disconnected (room : Nat) : Connection := { room, link := none, recorded := .disconnected }

/-- The state now: a connection that was open is closed if its link has closed. -/
def state (c : Connection) : ConnectionState :=
  match c.link, c.recorded with
  | some l, .opened => if l.isOpen then .opened else .closed
  | _, s => s

/-- Whether a message can be sent. -/
def isOpen (c : Connection) : Bool := c.state == .opened

/-- A first connection is being opened. -/
def dial (c : Connection) : Connection := { c with recorded := .connecting }

/-- A new link is being opened in place of the old one, which is assumed broken. -/
def redial (c : Connection) : Connection := { c with link := none, recorded := .connecting }

/-- The opening has ended. -/
def settle (c : Connection) (r : Except ConnectError Unit) : Connection :=
  match r with
  | .ok _ => { c with link := some { isOpen := true }, recorded := .opened }
  | .error _ => { c with recorded := .failed }

/-- A message has been sent and has found its end, which left the link open or not. -/
def afterExchange (c : Connection) (linkOpen : Bool) : Connection :=
  { c with
    link := c.link.map fun _ => { isOpen := linkOpen }
    recorded := if linkOpen then c.recorded else .closed }

/-- The link has closed by itself. -/
def lose (c : Connection) : Connection := { c with link := c.link.map fun _ => { isOpen := false } }

/-- The connection is given up in good order. -/
def close (c : Connection) : Connection := { c with link := none, recorded := .closed }

/-- The connection in messages for programmers. -/
def debugText (c : Connection) : String :=
  "Connection \x7b room_id: " ++ Text.digitString c.room ++ ", state: " ++ c.state.name ++ " \x7d"

end Connection

/-! ### Charged connections -/

/-- A connection together with the counters that its openings are charged to. -/
structure Line where
  connection : Connection
  counters : Counters
deriving DecidableEq, Repr, Inhabited

namespace Line

/-- Begins to repair the connection, which counts whether it succeeds or not. -/
def redial (l : Line) : Line :=
  { connection := l.connection.redial, counters := l.counters.addReconnection }

/-- Ends an opening, which counts if it succeeded. -/
def settle (l : Line) (r : Except ConnectError Unit) : Line :=
  { connection := l.connection.settle r
    counters := match r with
      | .ok _ => l.counters.addConnection
      | .error _ => l.counters }

/-- A repair from beginning to end, given how the opening ends. -/
def reconnect (l : Line) (r : Except ConnectError Unit) : Line := l.redial.settle r

/-- A new connection to a room, given how the opening ends; there is none if it fails. -/
def connect (room : Nat) (counters : Counters) (r : Except ConnectError Unit) :
    Except ConnectError Line :=
  let l := Line.settle { connection := (Connection.disconnected room).dial, counters } r
  match r with
  | .ok _ => .ok l
  | .error e => .error e

/-- A message on the link has found its end. -/
def answered (l : Line) (linkOpen : Bool) : Line :=
  { l with connection := l.connection.afterExchange linkOpen }

/-- A message on the connection, given what the link would make of it. A connection that is not
open refuses without asking the link. -/
def exchange (l : Line) (answer : Except SendError String) (linkOpen : Bool) :
    Except SendError String × Line :=
  if l.connection.isOpen then (answer, l.answered linkOpen) else (.error .closed, l)

/-- Closes the connection. -/
def close (l : Line) : Line := { l with connection := l.connection.close }

end Line

end LoadRig
