import LoadRig.Http.Response
import LoadRig.Link.Error
import LoadRig.Uri
/-!
# Shaking hands

A socket begins with a request to a web server, and is there once the server has agreed to switch
protocols. Things go wrong at three places: the address cannot be dialled, nobody answers the call,
or the answer does not agree.

## Main definitions

* `LoadRig.Socket.Dialing` — which addresses can be dialled.
* `LoadRig.Socket.addressFault?` — why an address cannot be.
* `LoadRig.Socket.answerFault?` — why an answer does not agree.
-/

namespace LoadRig.Socket

/-- Which addresses can be dialled. -/
inductive Dialing where
  /-- Those with a port, and those of socket schemes, which have a port of their own. -/
  | byPort
  /-- Those of socket schemes. -/
  | byScheme
deriving DecidableEq, Repr

/-- A handshake that was refused. -/
def refused (url reason : String) : ConnectError := .rejected url reason

/-- Why an address cannot be dialled. -/
def addressFault? (d : Dialing) (url : String) : Option ConnectError :=
  match Uri.parse url.toList with
  | .error e => some (refused url ("HTTP format error: " ++ e.message))
  | .ok uri =>
    if uri.authority.isNone then some (.invalidUrl url "No host name in the URL")
    else
      let isSocket := uri.scheme == some "ws".toList || uri.scheme == some "wss".toList
      if isSocket || (d = .byPort && uri.port?.isSome) then none
      else some (.invalidUrl url "URL scheme not supported")

/-- Nobody is reached, because there is no network. -/
def unreachable : String := "IO error: Network is unreachable (os error 101)"

/-- Nobody answers the call. -/
def nobodyThere : String := "IO error: Connection refused (os error 111)"

/-- The server ends the call before its answer is complete. -/
def unfinished : String := "WebSocket protocol error: Handshake not finished"

/-- The greatest number of fields in an answer. -/
def mostFields : Nat := 124

/-- Why an answer does not agree to switch protocols. The answer must name the key that belongs to
the request; where there is none to compare with, no key does. -/
def answerFault? (key : Option (List Char)) (answer : String) : Option String :=
  match Http.Response.read mostFields (Http.bytesOf answer) with
  | .error e => some ("WebSocket protocol error: httparse error: " ++ e.message)
  | .ok none => some unfinished
  | .ok (some r) =>
    if r.isOld then some "WebSocket protocol error: HTTP version must be 1.1 or higher"
    else if r.status < 100 then some "HTTP format error: invalid status code"
    else if r.status != 101 then some ("HTTP error: " ++ Http.statusText r.status)
    else if !r.hasField "upgrade" "websocket" then
      some "WebSocket protocol error: No \"Upgrade: websocket\" header"
    else if !r.hasField "connection" "upgrade" then
      some "WebSocket protocol error: No \"Connection: upgrade\" header"
    else if key.isNone || r.field? "sec-websocket-accept" != key then
      some "WebSocket protocol error: Key mismatch in \"Sec-WebSocket-Accept\" header"
    else none

/-- What becomes of an opening where there is no network. -/
def withoutNetwork (url : String) : ConnectError :=
  (addressFault? .byPort url).getD (refused url unreachable)

end LoadRig.Socket
