import LoadRig.Url.Escape
/-!
# Paths of the chat service

The service answers at two sorts of paths: one for the health report, and one for every room, whose
name is the part of the path behind the second slash. Rooms are entered by shaking hands only; a
plain request for one is refused.

## Main definitions

* `LoadRig.Route` — what a path leads to; `LoadRig.Route.ofPath` finds it.
* `LoadRig.Route.refusal?` — why no socket can be opened there.
-/

namespace LoadRig

/-- What a path leads to. -/
inductive Route where
  | health
  | room (name : List Char)
  /-- A room whose name is no text. -/
  | nameless
  | nowhere
deriving DecidableEq, Repr

namespace Route

/-- What stands before a query and a fragment. -/
def pathOnly (cs : List Char) : List Char := cs.takeWhile fun c => c != '?' && c != '#'

/-- Where a path leads, which may have a query behind it. -/
def ofPath (cs : List Char) : Route :=
  let path := pathOnly cs
  let head := "/chat/".toList
  if path == "/health".toList then .health
  else if path.take head.length == head then
    let name := path.drop head.length
    if name.isEmpty || name.contains '/' then .nowhere
    else
      match Url.unescapeText? name with
      | some name => .room name
      | none => .nameless
  else .nowhere

/-- The status of an answer to somebody who wants a socket there, if it is refused. -/
def refusal? : Route → Option Nat
  | health => some 200
  | room _ => none
  | nameless => some 400
  | nowhere => some 404

/-- What a plain request for a room is told. -/
def plainRequest : String := "Connection header did not include 'upgrade'"

end Route

end LoadRig
