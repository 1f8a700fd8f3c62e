import LoadRig.Config.Basic
import LoadRig.Link.Connection
import LoadRig.Word
/-!
# Trying a message until it is acknowledged

A message is tried a bounded number of times. Each attempt first repairs the connection if it is not
open, then sends and waits for the acknowledgement; between two attempts there is a pause, which
doubles from one to the next. A shutdown ends a pause at once and the message with it; it does not
cut an attempt short.

The course of one message is a small machine. Its stage says what it waits for, and `Retry.step`
says what each event makes of it; the events that can happen are decided elsewhere, by a clock and
a service.

## Main definitions

* `LoadRig.RetrySettings`, `LoadRig.RetrySettings.backoff` — the pauses.
* `LoadRig.SendOutcome` — how a message ends.
* `LoadRig.Retry` — a message under way; `LoadRig.Retry.start`, `LoadRig.Retry.step`.
-/

namespace LoadRig

/-- A moment on the clock of a run, in nanoseconds since its start. -/
abbrev Moment := Nat

/-- How often and with what patience a message is tried. -/
structure RetrySettings where
  /-- Attempts for each message, the first included. -/
  maxAttempts : Nat
  baseBackoff : Duration
  ackTimeout : Duration
deriving DecidableEq, Repr, Inhabited

namespace RetrySettings

/-- The settings of a configuration; there is at least one attempt. -/
def ofConfig (c : Config) : RetrySettings :=
  { maxAttempts := max c.retry.maxAttempts 1
    baseBackoff := c.retry.baseBackoff
    ackTimeout := c.target.ackTimeout }

/-- How many times the base the pause after failed attempt `attempt` is, counted from zero: a power
of two while it has thirty-two bits, and the greatest number of thirty-two bits after that. -/
def backoffFactor (attempt : Nat) : Nat := if attempt < 32 then Nat.pow 2 attempt else narrowLimit - 1

/-- The pause after failed attempt `attempt`, counted from zero. -/
def backoff (s : RetrySettings) (attempt : Nat) : Duration :=
  s.baseBackoff.saturatingMul (backoffFactor attempt)

end RetrySettings

/-- How a message ended. -/
inductive SendOutcome where
  | acked (reply : String) (attempts : Nat)
  | failed (attempts : Nat) (lastError : Option AttemptError) (interrupted : Bool)
deriving DecidableEq, Repr

/-- Whether the message was acknowledged. -/
def SendOutcome.isSuccess : SendOutcome → Bool
  | acked _ _ => true
  | failed _ _ _ => false

/-- What a message under way waits for. -/
inductive RetryStage where
  /-- The repair of the connection. -/
  | dialing
  /-- The acknowledgement. -/
  | sending
  /-- The end of a pause after an error. -/
  | resting (error : AttemptError) (deadline : Moment)
deriving DecidableEq, Repr

/-- A message under way: the current attempt, counted from zero, and its stage. -/
structure Retry where
  attempt : Nat
  stage : RetryStage
deriving DecidableEq, Repr

/-- A message under way or at its end. -/
inductive RetryStatus where
  | going (r : Retry)
  | ended (o : SendOutcome)
deriving DecidableEq, Repr

/-- What can happen to a message under way. -/
inductive RetryEvent where
  | dialed (r : Except ConnectError Unit)
  | replied (r : Except SendError String) (linkOpen : Bool)
  | rested
  | interrupted

namespace Retry

/-- Begins an attempt: at once with the message if the connection is open, else with a repair. -/
def attempting (l : Line) (attempt : Nat) : Line × RetryStatus :=
  if l.connection.isOpen then (l, .going { attempt, stage := .sending })
  else (l.redial, .going { attempt, stage := .dialing })

/-- Begins the course of a message. -/
def start (s : RetrySettings) (l : Line) : Line × RetryStatus :=
  if s.maxAttempts = 0 then (l, .ended (.failed 0 none false)) else attempting l 0

/-- An attempt has failed: the message is given up after the last one, and pauses after every
other. -/
def fail (s : RetrySettings) (now : Moment) (attempt : Nat) (e : AttemptError) : RetryStatus :=
  if attempt + 1 = s.maxAttempts then .ended (.failed s.maxAttempts (some e) false)
  else .going { attempt, stage := .resting e (now + (s.backoff attempt).toNanos) }

/-- What an event makes of a message under way; nothing if the message does not wait for it. A
pause ends when its time has come, or earlier if the run is being shut down. -/
def step (s : RetrySettings) (now : Moment) (stopping : Bool) (l : Line) (r : Retry) :
    RetryEvent → Option (Line × RetryStatus)
  | .dialed result =>
    match r.stage with
    | .dialing =>
      let l := l.settle result
      match result with
      | .ok _ => some (l, .going { r with stage := .sending })
      | .error e => some (l, fail s now r.attempt (.connect e))
    | _ => none
  | .replied result linkOpen =>
    match r.stage with
    | .sending =>
      let l := l.answered linkOpen
      match result with
      | .ok reply => some (l, .ended (.acked reply (r.attempt + 1)))
      | .error e => some (l, fail s now r.attempt (.send e))
    | _ => none
  | .rested =>
    match r.stage with
    | .resting _ deadline => if deadline ≤ now then some (attempting l (r.attempt + 1)) else none
    | _ => none
  | .interrupted =>
    match r.stage with
    | .resting e _ =>
      if stopping then some (l, .ended (.failed (r.attempt + 1) (some e) true)) else none
    | _ => none

end Retry

end LoadRig
