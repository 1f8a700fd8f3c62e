import LoadRig.Time.Duration
/-!
# What can go wrong on the way to an acknowledgement

A connection may not come about, and a message on an open connection may not be acknowledged. An
attempt to deliver a message fails for one reason of either sort.

## Main definitions

* `LoadRig.ConnectError`, `LoadRig.SendError`, `LoadRig.AttemptError` — the causes.
* `LoadRig.ConnectError.message` and its like — their texts.
-/

namespace LoadRig

/-- Why a connection did not come about. -/
inductive ConnectError where
  | timeout (url : String) (after : Duration)
  | rejected (url reason : String)
  | invalidUrl (url reason : String)
deriving DecidableEq, Repr

/-- The text of a connection error. -/
def ConnectError.message : ConnectError → String
  | timeout url after => "connect to " ++ url ++ " timed out after " ++ after.text
  | rejected url reason => "handshake with " ++ url ++ " rejected: " ++ reason
  | invalidUrl url reason => "invalid target url " ++ url ++ ": " ++ reason

/-- Why a message was not acknowledged. -/
inductive SendError where
  | ackTimeout (after : Duration)
  | closed
  | transport (reason : String)
  | protocol (reason : String)
deriving DecidableEq, Repr

/-- The text of a sending error. -/
def SendError.message : SendError → String
  | ackTimeout after => "no acknowledgment within " ++ after.text
  | closed => "connection closed"
  | transport reason => "transport error: " ++ reason
  | protocol reason => "protocol error: " ++ reason

/-- Why an attempt to deliver a message failed. -/
inductive AttemptError where
  | connect (e : ConnectError)
  | send (e : SendError)
deriving DecidableEq, Repr

/-- The text of the error that made an attempt fail. -/
def AttemptError.message : AttemptError → String
  | connect e => e.message
  | send e => e.message

end LoadRig
