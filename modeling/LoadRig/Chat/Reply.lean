import LoadRig.Chat.Rules
/-!
# Replies of the chat service

Every text frame is answered by one reply: either the message is accepted and comes back with the
time of the answer, or the reply names what is wrong with it. A reply of the first sort has no
error and one of the second has nothing else, which the type says.

## Main definitions

* `LoadRig.Reply` — a reply; `LoadRig.Reply.text` is its JSON text.
* `LoadRig.respond` — the reply to one frame.
-/

namespace LoadRig

open LoadRig.Json

/-- The answer to one text frame. -/
inductive Reply where
  | ok (serverTimestamp : List Char) (accepted : ChatMessage)
  | error (reason : String)
deriving Inhabited

/-- The error for a text that holds no message. -/
def malformed : String := "Invalid JSON format"

/-- The reply to a text frame that is answered at the moment written as `stamp`. -/
def respond (stamp payload : List Char) : Reply :=
  match ChatMessage.parse? payload with
  | none => .error malformed
  | some m =>
    match m.fault? with
    | some f => .error f.message
    | none => .ok stamp m

namespace Reply

/-- The reply as a JSON value. -/
def toValue : Reply → Value
  | ok stamp m => .record [("status", .ofString "OK"), ("serverTimestamp", .string stamp),
      ("originalMessage", m.toValue)]
  | error reason => .record [("status", .ofString "ERROR"), ("error", .ofString reason)]

/-- The reply as it is sent. -/
def text (r : Reply) : List Char := r.toValue.compact

end Reply

end LoadRig
