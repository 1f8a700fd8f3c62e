import LoadRig.Chat.Visit
import LoadRig.Generator
import LoadRig.Preflight.Health
import LoadRig.Preflight.Target
import LoadRig.Socket.Peer
/-!
# The two checks

A preflight asks for the health report and sends one message through a socket. Each check tells on
a line how it went; the times in it are given in milliseconds.

## Main definitions

* `LoadRig.Preflight.Surroundings` — what the two requests meet.
* `LoadRig.Preflight.Checks` — how the checks went; `LoadRig.Preflight.check` makes them.
* `LoadRig.Preflight.healthLine`, `LoadRig.Preflight.roundTripLine`
-/

namespace LoadRig.Preflight

open LoadRig.Socket

/-- What answers the request for the health report. -/
inductive HealthSide where
  | nobody
  | service
  | text (answer : String)
deriving DecidableEq, Repr

/-- What is at the other end of the socket. -/
inductive SocketSide where
  | service
  | wire (w : Wire)

/-- What the two requests meet. -/
structure Surroundings where
  health : HealthSide
  socket : SocketSide

/-- How a round trip went. -/
inductive RoundTrip where
  | notConnected
  | timedOut
  | acked
  | failed
deriving DecidableEq, Repr

/-- How the checks went. -/
structure Checks where
  health : HealthCheck
  roundTrip : RoundTrip
deriving DecidableEq, Repr

/-- The number of checks that were not passed. -/
def Checks.failures (c : Checks) : Nat :=
  (if c.health.passed then 0 else 1) + (if c.roundTrip = .acked then 0 else 1)

/-- Asks for the health report. The address must be one that can be written into a request. -/
def checkHealth (s : HealthSide) (url : Url) : HealthCheck :=
  match Uri.parse { url with user := [], password := [] }.text with
  | .error _ => .noAnswer
  | .ok _ =>
    match s with
    | .nobody => .noAnswer
    | .service => .answered 200 true
    | .text answer =>
      let bytes := Http.bytesOf answer
      healthOf (bytes.length + 1) bytes

/-- The message that is sent through the socket. -/
def probe (now : Time.Instant) : String :=
  ((SeededGenerator.ofSeed 1 (.ofSize 1) 0).next now).1.payload

/-- How the end of a message looks. -/
def roundTripOf : Answer → RoundTrip
  | .ok _ => .acked
  | .error _ => .failed

/-- Sends a message through a socket to a room. -/
def checkRoundTrip (s : SocketSide) (c : Config) (room : Nat) (now : Time.Instant) : RoundTrip :=
  let target := Target.webSocket c.target.baseUrl
  let stamp := now.text
  match s with
  | .service =>
    match Visits.enter stamp {} 0 (target.endpoint room) with
    | (.error _, _) => .notConnected
    | (.ok _, v) =>
      match v.say stamp 0 (probe now) with
      | some (a, _) => roundTripOf a
      | none => .failed
  | .wire w =>
    match Desk.dial { target, wire := w } room with
    | (.failed _, _) => .notConnected
    | (.never, _) => .timedOut
    | (.opened t, _) => roundTripOf (t.send (probe now) c.target.ackTimeout).1

/-- Makes both checks. -/
def check (s : Surroundings) (c : Config) (room : Nat) (health : Url) (now : Time.Instant) : Checks :=
  { health := checkHealth s.health health, roundTrip := checkRoundTrip s.socket c room now }

/-- A number of milliseconds. -/
def millisText (n : Nat) : String := Text.digitString n ++ "ms"

/-- A text with blanks behind it up to a width of ten. -/
def padded (s : String) : String := String.ofList (Text.padRight 10 ' ' s.toList)

/-- What is told of the health report that took some milliseconds. -/
def healthLine (path : String) (c : HealthCheck) (millis : Nat) : String :=
  let outcome := match c with
    | .noAnswer => "ERROR"
    | .answered status _ => Text.digitString status
  "GET " ++ padded path ++ " -> " ++ outcome ++ " (" ++ millisText millis ++ ")"

/-- What is told of a round trip, given the milliseconds until the socket was open and until the
answer came. -/
def roundTripLine (endpoint : String) (r : RoundTrip) (connect ack : Nat) : String :=
  match r with
  | .notConnected => "WS  " ++ padded endpoint ++ " -> CONNECT ERROR"
  | .timedOut => "WS  " ++ padded endpoint ++ " -> CONNECT TIMEOUT"
  | .acked =>
    "WS  " ++ endpoint ++ " -> ACK (connect " ++ millisText connect ++ ", ack " ++ millisText ack ++ ")"
  | .failed => "WS  " ++ endpoint ++ " -> ERROR (" ++ millisText ack ++ ")"

end LoadRig.Preflight
