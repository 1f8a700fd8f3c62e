import LoadRig.Json.Value
/-!
# Chat messages as the service reads them

The service reads a JSON object with six known members. Each may be missing, or null, which is the
same; five hold texts and the room holds any value. A known member may not be repeated; members of
other names are passed over. A list of exactly six values is read as the members in order.

## Main definitions

* `LoadRig.ChatMessage` — what was read.
* `LoadRig.ChatMessage.ofTree?`, `LoadRig.ChatMessage.parse?` — the reader.
* `LoadRig.ChatMessage.encode` — the message as it stands in a reply.
-/

namespace LoadRig

open LoadRig.Json

/-- A chat message whose members may be missing. -/
structure ChatMessage where
  userId : Option (List Char)
  username : Option (List Char)
  message : Option (List Char)
  timestamp : Option (List Char)
  messageType : Option (List Char)
  roomId : Option Value
deriving Inhabited

namespace ChatMessage

/-- A text, or null for a missing one. -/
def textOf? : Tree → Option (Option (List Char))
  | .null => some none
  | .string pieces => (decodePieces? pieces).map some
  | _ => none

/-- Any value, or null for a missing one. -/
def valueOf? : Tree → Option (Option Value)
  | .null => some none
  | t => (Value.ofTree? deepest t).map some

/-- The names of all members. A name with a lone surrogate spoils the message even where its
member would be passed over. -/
def namesOf? (members : List (List Piece × Tree)) : Option (List (List Char × Tree)) :=
  members.mapM fun (name, t) => (decodePieces? name).map (·, t)

/-- The member of a name, read by `read?`. It may stand there once or not at all. -/
def member? {α : Type} (read? : Tree → Option (Option α)) (name : String)
    (members : List (List Char × Tree)) : Option (Option α) :=
  match members.filter (·.1 == name.toList) with
  | [] => some none
  | [m] => read? m.2
  | _ => none

/-- The message that a tree holds. -/
def ofTree? : Tree → Option ChatMessage
  | .object members => do
    let members ← namesOf? members
    let userId ← member? textOf? "userId" members
    let username ← member? textOf? "username" members
    let message ← member? textOf? "message" members
    let timestamp ← member? textOf? "timestamp" members
    let messageType ← member? textOf? "messageType" members
    let roomId ← member? valueOf? "roomId" members
    return { userId, username, message, timestamp, messageType, roomId }
  | .array [userId, username, message, timestamp, messageType, roomId] => do
    let userId ← textOf? userId
    let username ← textOf? username
    let message ← textOf? message
    let timestamp ← textOf? timestamp
    let messageType ← textOf? messageType
    let roomId ← valueOf? roomId
    return { userId, username, message, timestamp, messageType, roomId }
  | _ => none

/-- Reads a message off a JSON text. -/
def parse? (payload : List Char) : Option ChatMessage := (Tree.parse? payload).bind ofTree?

/-- The members of a message that are there, in order. -/
def members (m : ChatMessage) : List (List Char × Value) :=
  let text (name : String) (t : Option (List Char)) : Option (List Char × Value) :=
    t.map fun t => (name.toList, .string t)
  [text "userId" m.userId, text "username" m.username, text "message" m.message,
    text "timestamp" m.timestamp, text "messageType" m.messageType,
    m.roomId.map (("roomId".toList, ·))].filterMap id

/-- The message as a JSON value; missing members are left out. -/
def toValue (m : ChatMessage) : Value := .object m.members

/-- The message as a JSON text. -/
def encode (m : ChatMessage) : List Char := m.toValue.compact

end ChatMessage

end LoadRig
