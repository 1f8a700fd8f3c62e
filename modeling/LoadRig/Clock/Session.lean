import LoadRig.Link.Service
import LoadRig.Retry
/-!
# Connections on a virtual clock

Someone who works through connections one call after the other: each call takes the time that the
service needs, and the clock stands still in between. A sign to stop may be given by hand, or come
at a moment that is known beforehand.

## Main definitions

* `LoadRig.Clock.Session` — the connections, the service and the clock.
* `LoadRig.Clock.Session.turn`, `LoadRig.Clock.Session.follow` — a message under way.
* `LoadRig.Clock.Session.connect`, `LoadRig.Clock.Session.reconnect`, `LoadRig.Clock.Session.send`,
  `LoadRig.Clock.Session.deliver`, `LoadRig.Clock.Session.close` — the calls.
* `LoadRig.Clock.Session.sleep`, `LoadRig.Clock.Session.trigger`, `LoadRig.Clock.Session.wait`
-/

namespace LoadRig.Clock

/-- Where the sign to stop comes from. -/
inductive StopSign where
  | byHand
  | never
  | at (moment : Moment)
deriving DecidableEq, Repr

/-- Connections in numbered places, the service behind them, and the clock. -/
structure Session where
  service : Service
  retry : RetrySettings
  connectTimeout : Duration
  sign : StopSign
  now : Moment := 0
  stopping : Bool := false
  counters : Counters := {}
  places : List (Nat × Connection) := []

namespace Session

/-- The connection in a place. -/
def at? (s : Session) (place : Nat) : Option Connection :=
  (s.places.find? (·.1 == place)).map (·.2)

/-- Puts a connection into a place. -/
def put (s : Session) (place : Nat) (c : Connection) : Session :=
  { s with places := (place, c) :: s.places.filter (·.1 != place) }

/-- Whether the sign to stop has been given by now. -/
def notice (s : Session) : Session :=
  match s.sign with
  | .at moment => { s with stopping := s.stopping || moment ≤ s.now }
  | _ => s

/-- Lets time go by. -/
def pass (s : Session) (nanos : Nat) : Session := { s with now := s.now + nanos }.notice

/-- Opens a link to a room, with the patience of the session. Whoever works through the connections is
not brought down: an opening that would do that counts as one that took too long. -/
def dial (s : Session) (room : Nat) : Except ConnectError Unit × Session :=
  let patience := s.connectTimeout.toNanos
  let url := s.service.target.endpoint room
  let late : Except ConnectError Unit := .error (.timeout url s.connectTimeout)
  let (dial, service) := s.service.dial room
  let s := { s with service }
  match dial with
  | .never => (late, s.pass patience)
  | .after nanos verdict =>
    if nanos ≤ patience then
      let s := s.pass nanos
      let (result, service) := s.service.settle room verdict
      (result.getD late, { s with service })
    else (late, s.pass patience)

/-- Opens a connection to a room and puts it into a place if that succeeds. -/
def connect (s : Session) (place room : Nat) : Except ConnectError Unit × Session :=
  let (result, s) := s.dial room
  match Line.connect room s.counters result with
  | .ok l => (.ok (), { s with counters := l.counters }.put place l.connection)
  | .error e => (.error e, s)

/-- Repairs the connection of a place. -/
def reconnect (s : Session) (place : Nat) (c : Connection) : Except ConnectError Unit × Session :=
  let l : Line := { connection := c, counters := s.counters }
  let (result, s) := s.dial c.room
  let l := l.reconnect result
  (result, { s with counters := l.counters }.put place l.connection)

/-- Sends a message on the connection of a place and waits for the answer. -/
def send (s : Session) (place : Nat) (c : Connection) (payload : String) (timeout : Duration) :
    Except SendError String × Session :=
  let l : Line := { connection := c, counters := s.counters }
  if c.isOpen then
    let (e, service) := s.service.send c.isOpen payload timeout
    let s := { s with service }.pass e.after
    let (answer, l) := l.exchange e.answer e.linkOpen
    (answer, s.put place l.connection)
  else
    let (answer, l) := l.exchange (.error .closed) false
    (answer, s.put place l.connection)

/-- What a message under way meets next, and the session by then. The sign to stop ends a pause if
it comes before the pause is over. -/
def turn (s : Session) (l : Line) (r : Retry) (payload : String) : RetryEvent × Session :=
  match r.stage with
  | .dialing =>
    let (result, s) := s.dial l.connection.room
    (.dialed result, s)
  | .sending =>
    let (e, service) := s.service.send l.connection.isOpen payload s.retry.ackTimeout
    (.replied e.answer e.linkOpen, { s with service }.pass e.after)
  | .resting _ deadline =>
    if s.stopping then (.interrupted, s)
    else
      match s.sign with
      | .at moment =>
        if moment < deadline then (.interrupted, s.pass (moment - s.now))
        else (.rested, s.pass (deadline - s.now))
      | _ => (.rested, s.pass (deadline - s.now))

/-- Follows a message under way to its end, in at most `fuel` turns. -/
def follow (payload : String) : Nat → Session → Line → RetryStatus → SendOutcome × Line × Session
  | _, s, l, .ended o => (o, l, s)
  | 0, s, l, .going r => (.failed r.attempt none false, l, s)
  | fuel + 1, s, l, .going r =>
    let (event, s) := s.turn l r payload
    match r.step s.retry s.now s.stopping l event with
    | some (l, status) => follow payload fuel s l status
    | none => (.failed r.attempt none false, l, s)

/-- Tries a message on the connection of a place until it is acknowledged or given up. -/
def deliver (s : Session) (place : Nat) (c : Connection) (payload : String) :
    SendOutcome × Session :=
  let l : Line := { connection := c, counters := s.counters }
  let (l, status) := Retry.start s.retry l
  let (o, l, s) := s.follow payload (3 * s.retry.maxAttempts + 1) l status
  (o, { s with counters := l.counters }.put place l.connection)

/-- Closes the connection of a place. -/
def close (s : Session) (place : Nat) (c : Connection) : Session := s.put place c.close

/-- Lets some time go by and tells whether the sign to stop has been given. -/
def sleep (s : Session) (d : Duration) : Bool × Session :=
  let s := s.pass d.toNanos
  (s.stopping, s)

/-- Gives the sign to stop, where it is given by hand. -/
def trigger (s : Session) : Bool × Session :=
  let s := match s.sign with
    | .byHand => { s with stopping := true }
    | _ => s
  (s.stopping, s)

/-- Waits for the sign to stop, at most for some time, and tells whether it came. -/
def wait (s : Session) (d : Duration) : Bool × Session :=
  if s.stopping then (true, s)
  else
    match s.sign with
    | .at moment =>
      if moment ≤ s.now + d.toNanos then (true, s.pass (moment - s.now))
      else (false, s.pass d.toNanos)
    | _ => (false, s.pass d.toNanos)

end Session

end LoadRig.Clock
