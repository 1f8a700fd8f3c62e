import LoadRig.Json.Quoted
import LoadRig.Message.Kind
import LoadRig.Time.Calendar
/-!
# Generated messages

A work item is one message that a sender will put on the wire: who says what, in which room, and
when it was made. Its payload is the JSON object that the chat service expects; the user id is
written as a string, the room as a number.

## Main definitions

* `LoadRig.WorkItem` — a message.
* `LoadRig.WorkItem.username` — the name that goes with a user id.
* `LoadRig.WorkItem.encode` — the JSON text with a given timestamp text.
* `LoadRig.WorkItem.payload` — the JSON text that is sent.
-/

namespace LoadRig

open LoadRig.Text LoadRig.Json

/-- One message to be sent. -/
structure WorkItem where
  userId : Nat
  body : String
  createdAt : Time.Instant
  kind : MessageKind
  room : Nat
deriving DecidableEq, Repr

namespace WorkItem

/-- The name of the user with a given id. -/
def usernameOf (userId : Nat) : List Char := ['u', 's', 'e', 'r'] ++ digits userId

/-- The name under which the message is sent. -/
def username (item : WorkItem) : List Char := usernameOf item.userId

/-- A member whose value is a string, without a comma. -/
def textMember (name value : List Char) : List Char := quoted name ++ ':' :: quoted value

/-- The JSON object of the message with `stamp` as its timestamp. -/
def encode (item : WorkItem) (stamp : List Char) : List Char :=
  '\x7b' :: textMember "userId".toList (digits item.userId) ++
    ',' :: textMember "username".toList item.username ++
    ',' :: textMember "message".toList item.body.toList ++
    ',' :: textMember "timestamp".toList stamp ++
    ',' :: textMember "messageType".toList item.kind.name.toList ++
    ',' :: quoted "roomId".toList ++ ':' :: digits item.room ++ ['\x7d']

/-- The JSON text that is sent. -/
def payload (item : WorkItem) : String := String.ofList (item.encode item.createdAt.text)

end WorkItem

end LoadRig
