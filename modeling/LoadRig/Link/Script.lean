import LoadRig.Link.Mock
/-!
# The scripted service

A service that does what a script says: each opening of a link and each message takes the next line
of its script. When a script has come to its end, openings succeed at once and messages are
acknowledged by themselves.

## Main definitions

* `LoadRig.OpenLine`, `LoadRig.SendLine` — the lines of the two scripts.
* `LoadRig.ScriptService` — what is left of the scripts, and counts.
-/

namespace LoadRig

/-- What an opening ends in. -/
inductive OpenResult where
  | ok
  | reject (reason : String)
  | invalid (reason : String)
  | hang
  | crash
deriving DecidableEq, Repr

/-- An opening: how long it takes and what it ends in. -/
structure OpenLine where
  delay : Duration := .zero
  result : OpenResult := .ok
deriving DecidableEq, Repr

/-- What becomes of a message; the payload itself comes back where no reply is given. -/
inductive SendResult where
  | ack (reply : Option String)
  | timeout
  | closed
  | transport (reason : String)
  | protocol (reason : String)
deriving DecidableEq, Repr

/-- A message: how long it takes, whether it closes the link, and what becomes of it. -/
structure SendLine where
  delay : Duration := .zero
  dies : Bool := false
  result : SendResult := .ack none
deriving DecidableEq, Repr

/-- The rest of the scripts, the links that were opened and the messages that were counted. -/
structure ScriptService where
  opens : List OpenLine := []
  sends : List SendLine := []
  opened : Nat := 0
  sent : Nat := 0
deriving DecidableEq, Repr, Inhabited

namespace ScriptService

/-- Takes the next line for an opening. -/
def takeOpen (s : ScriptService) : OpenLine × ScriptService :=
  match s.opens with
  | [] => ({}, s)
  | l :: opens => (l, { s with opens })

/-- Counts a link that was opened. -/
def countOpened (s : ScriptService) : ScriptService := { s with opened := s.opened + 1 }

/-- A message, which is counted and takes the next line. A line that lets the time run out waits
for the whole of it after its own delay. -/
def send (s : ScriptService) (payload : String) (timeout : Duration) : Exchange × ScriptService :=
  let s := { s with sent := s.sent + 1 }
  let (l, s) : SendLine × ScriptService := match s.sends with
    | [] => ({}, s)
    | l :: sends => (l, { s with sends })
  let delay := l.delay.toNanos
  let linkOpen := !l.dies
  (match l.result with
    | .ack reply => { after := delay, answer := .ok (reply.getD payload), linkOpen }
    | .timeout =>
      { after := delay + timeout.toNanos, answer := .error (.ackTimeout timeout), linkOpen }
    | .closed => { after := delay, answer := .error .closed, linkOpen }
    | .transport reason => { after := delay, answer := .error (.transport reason), linkOpen }
    | .protocol reason => { after := delay, answer := .error (.protocol reason), linkOpen }, s)

end ScriptService

end LoadRig
