/-!
# Kinds of chat messages

A message is a text, or tells that a user joins or leaves. Generated traffic is nine parts in ten
text and one part in twenty each of the other two, decided by a roll below one hundred.

## Main definitions

* `LoadRig.MessageKind` — the three kinds.
* `LoadRig.MessageKind.name` — the kind as it stands in every text of this library.
* `LoadRig.MessageKind.ofRoll` — the kind that a roll decides.
-/

namespace LoadRig

/-- What a chat message is. -/
inductive MessageKind where
  | text
  | join
  | leave
deriving DecidableEq, Repr, Inhabited

namespace MessageKind

/-- Every kind, in the order in which kinds are listed. -/
def all : List MessageKind := [text, join, leave]

/-- The kind in capitals. -/
def name : MessageKind → String
  | text => "TEXT"
  | join => "JOIN"
  | leave => "LEAVE"

/-- The place of a kind in `MessageKind.all`. -/
def rank : MessageKind → Nat
  | text => 0
  | join => 1
  | leave => 2

/-- The kind with a given name. -/
def ofName? (s : String) : Option MessageKind := all.find? (·.name == s)

/-- The kind that a roll below one hundred decides; larger rolls count as ninety-nine. -/
def ofRoll (roll : Nat) : MessageKind :=
  if roll < 90 then text else if roll < 95 then join else leave

theorem mem_all (k : MessageKind) : k ∈ all := by cases k <;> decide

end MessageKind

end LoadRig
