import LoadRig.Chat.Message
import LoadRig.Message.Kind
import LoadRig.Text.Blank
import LoadRig.Time.Rfc3339
import LoadRig.Word
/-!
# The rules for a message

A message is accepted when every rule holds; the rules are tried in a fixed order and the first
broken one is the answer. Lengths count characters.

## Main definitions

* `LoadRig.Fault` — a broken rule; `LoadRig.Fault.message` is its text.
* `LoadRig.readUserId?` — the number in a user id.
* `LoadRig.ChatMessage.fault?` — the first broken rule, if there is one.
-/

namespace LoadRig

open LoadRig.Text

/-- A rule that a message breaks. -/
inductive Fault where
  | userIdMissing
  | userIdNotNumeric
  | userIdOutOfRange
  | usernameMissing
  | usernameLength
  | usernameCharacters
  | messageMissing
  | messageLength
  | timestampMissing
  | timestampMalformed
  | kindUnknown
deriving DecidableEq, Repr

/-- The text of a broken rule. -/
def Fault.message : Fault → String
  | userIdMissing => "userId is required"
  | userIdNotNumeric => "userId must be a numeric string"
  | userIdOutOfRange => "userId must be between 1 and 100000"
  | usernameMissing => "username is required"
  | usernameLength => "username must be 3-20 characters"
  | usernameCharacters => "username must be alphanumeric"
  | messageMissing => "message is required"
  | messageLength => "message must be 1-500 characters"
  | timestampMissing => "timestamp is required"
  | timestampMalformed => "timestamp must be valid ISO-8601"
  | kindUnknown => "messageType must be TEXT, JOIN, or LEAVE"

/-- The greatest user id. -/
def greatestUserId : Nat := 100000

/-- The longest message. -/
def longestMessage : Nat := 500

/-- The number in a user id: digits with at most one plus sign before them, below `2 ^ 32`. -/
def readUserId? (cs : List Char) : Option Nat :=
  let ds := match cs with
    | '+' :: rest => rest
    | _ => cs
  match readDigits? ds with
  | some n => if n < narrowLimit then some n else none
  | none => none

namespace ChatMessage

/-- The broken rule of the user id. -/
def userIdFault? (userId : List Char) : Option Fault :=
  if allBlank userId then some .userIdMissing
  else
    match readUserId? userId with
    | none => some .userIdNotNumeric
    | some n => if 1 ≤ n && n ≤ greatestUserId then none else some .userIdOutOfRange

/-- The broken rule of the user name. -/
def usernameFault? (username : List Char) : Option Fault :=
  if allBlank username then some .usernameMissing
  else if !(3 ≤ username.length && username.length ≤ 20) then some .usernameLength
  else if !username.all Char.isAlphanum then some .usernameCharacters
  else none

/-- The broken rule of the message body. -/
def bodyFault? (body : List Char) : Option Fault :=
  if body.isEmpty then some .messageMissing
  else if longestMessage < body.length then some .messageLength
  else none

/-- The broken rule of the timestamp. -/
def timestampFault? (timestamp : List Char) : Option Fault :=
  if allBlank timestamp then some .timestampMissing
  else if !Time.isTimestamp timestamp then some .timestampMalformed
  else none

/-- The broken rule of the kind. -/
def kindFault? (messageType : Option (List Char)) : Option Fault :=
  match messageType with
  | some k => if (MessageKind.all.map (·.name.toList)).contains k then none else some .kindUnknown
  | none => some .kindUnknown

/-- The first rule that a message breaks. A missing member is an empty text. -/
def fault? (m : ChatMessage) : Option Fault :=
  (userIdFault? (m.userId.getD [])).or <|
  (usernameFault? (m.username.getD [])).or <|
  (bodyFault? (m.message.getD [])).or <|
  (timestampFault? (m.timestamp.getD [])).or <|
  kindFault? m.messageType

end ChatMessage

end LoadRig
