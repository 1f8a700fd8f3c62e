import LoadRig.Link.Script
/-!
# Services on a clock

What the far side does, and how long it takes. A service is the stand-in, a script, or a network
that cannot be reached, where every opening ends in the same error. Opening a link has a beginning
and an end: at the beginning the service says how long the opening will take, at the end whether it
succeeded or brings its owner down, and if the owner does not wait that long the end never comes.

## Main definitions

* `LoadRig.Service` — a far side.
* `LoadRig.Dial` — what the beginning of an opening promises; `LoadRig.Service.dial` makes it.
* `LoadRig.Service.settle` — the end of an opening.
* `LoadRig.Service.send` — a message on a link.
-/

namespace LoadRig

/-- A far side. -/
inductive Service where
  | mock (m : MockService)
  | script (s : ScriptService)
  | unreachable (baseUrl : String) (error : String → ConnectError)

/-- How an opening will end, as far as that is known when it begins. A crash brings its owner down. -/
inductive Verdict where
  | undecided
  | decided (r : Except ConnectError Unit)
  | crash

/-- The beginning of an opening: it never ends, or it ends after some nanoseconds. -/
inductive Dial where
  | never
  | after (nanos : Nat) (verdict : Verdict)

namespace Service

/-- How the rooms of a service are named. -/
def target : Service → Target
  | mock _ => .mock
  | script _ => .script
  | unreachable baseUrl _ => .webSocket baseUrl

/-- Begins to open a link to a room. -/
def dial (s : Service) (room : Nat) : Dial × Service :=
  let url := s.target.endpoint room
  match s with
  | mock m => (.after m.connectDelay.toNanos .undecided, s)
  | script sc =>
    let (l, sc) := sc.takeOpen
    let nanos := l.delay.toNanos
    (match l.result with
      | .ok => .after nanos (.decided (.ok ()))
      | .reject reason => .after nanos (.decided (.error (.rejected url reason)))
      | .invalid reason => .after nanos (.decided (.error (.invalidUrl url reason)))
      | .hang => .never
      | .crash => .after nanos .crash, script sc)
  | unreachable _ error => (.after 0 (.decided (.error (error url))), s)

/-- Ends an opening that was not given up before; there is no result if its owner is brought down. -/
def settle (s : Service) (room : Nat) (v : Verdict) :
    Option (Except ConnectError Unit) × Service :=
  match v, s with
  | .decided (.error e), s => (some (.error e), s)
  | .decided (.ok ()), script sc => (some (.ok ()), script sc.countOpened)
  | .decided (.ok ()), s => (some (.ok ()), s)
  | .undecided, mock m =>
    match m.handshake with
    | (true, m) => (some (.ok ()), mock m)
    | (false, m) =>
      (some (.error (.rejected (s.target.endpoint room) MockService.refusal)), mock m)
  | .undecided, s => (some (.ok ()), s)
  | .crash, s => (none, s)

/-- A message on a link that is open or not. -/
def send (s : Service) (linkOpen : Bool) (payload : String) (timeout : Duration) :
    Exchange × Service :=
  match s with
  | mock m =>
    let (e, m) := m.send linkOpen timeout
    (e, mock m)
  | script sc =>
    let (e, sc) := sc.send payload timeout
    (e, script sc)
  | unreachable _ _ => ({ after := 0, answer := .error .closed, linkOpen := false }, s)

/-- Links opened and messages counted so far. -/
def counts : Service → Nat × Nat
  | mock m => (m.opened, m.sends)
  | script sc => (sc.opened, sc.sent)
  | unreachable _ _ => (0, 0)

end Service

end LoadRig
