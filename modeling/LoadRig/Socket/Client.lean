import LoadRig.Link.Error
/-!
# The near end of a socket

Two tasks share a socket. The owner sends one message at a time and waits for its answer; the reader
takes whatever comes in. Between them stand a slot, which is armed while a message waits for its
answer, and a flag that tells whether the socket is still open. The reader gives the next text or
binary frame to the message whose ticket is in the slot and empties it; with an empty slot the frame
is dropped. When the reader ends, it takes the flag down and empties the slot, and a message that
was waiting there learns that nothing will come.

Each stretch of work that is not interrupted is one move. A message is begun, written, and answered
or given up; in between the reader may move.

Nothing in a frame says which message it answers. The reader goes by what is in the slot at that
moment, so an answer that comes after its message was given up may be taken for that of the next
one.

## Main definitions

* `LoadRig.Socket.Inbound` — what the reader meets.
* `LoadRig.Socket.Client` — the near end; `LoadRig.Socket.Call` is a message under way.
* `LoadRig.Socket.Move`, `LoadRig.Socket.Client.step` — what can happen, and what comes of it.
-/

namespace LoadRig.Socket

/-- What the reader of a socket meets. -/
inductive Inbound where
  | text (s : String)
  | binary
  /-- A ping or a pong. -/
  | control
  | close
  | failure
  | finish
deriving DecidableEq, Repr

/-- What a message ends in. -/
abbrev Answer := Except SendError String

/-- A message under way. `mail` is what the reader has left for it. -/
structure Call where
  ticket : Nat
  payload : String
  written : Bool := false
  mail : Option Answer := none

/-- The near end of a socket. -/
structure Client where
  isOpen : Bool := true
  /-- Whether the reader still runs. -/
  reading : Bool := true
  /-- The ticket of the message that gets the next frame. -/
  slot : Option Nat := none
  call : Option Call := none
  /-- The ticket of the next message. -/
  tickets : Nat := 0

/-- The error that a binary frame is answered with. -/
def unexpectedBinary : SendError := .protocol "unexpected binary frame"

/-- What can happen at the near end. -/
inductive Move where
  | send (payload : String)
  /-- The message has been written, or the writing has failed for a reason. -/
  | wrote (failure : Option String)
  | inbound (f : Inbound)
  /-- The owner looks whether the reader has left an answer, or will leave none. -/
  | look
  /-- The time for an answer is over. -/
  | expire (after : Duration)
  | close

namespace Client

/-- A message is begun. It gets the slot, or its end at once where the socket is not open. -/
def send (c : Client) (payload : String) : Option (Client × Option Answer) :=
  match c.call with
  | some _ => none
  | none =>
    if c.isOpen then
      some ({ c with
        slot := some c.tickets
        call := some { ticket := c.tickets, payload }
        tickets := c.tickets + 1 }, none)
    else some (c, some (.error .closed))

/-- The writing of a message has ended. A failure closes the socket. -/
def wrote (c : Client) (failure : Option String) : Option (Client × Option Answer) :=
  match c.call with
  | none => none
  | some call =>
    if call.written then none
    else
      match failure with
      | none => some ({ c with call := some { call with written := true } }, none)
      | some reason =>
        some ({ c with slot := none, isOpen := false, call := none },
          some (.error (.transport reason)))

/-- The reader hands a frame to the message in the slot. -/
def deliver (c : Client) (a : Answer) : Client :=
  match c.slot with
  | none => c
  | some ticket =>
    { c with
      slot := none
      call := c.call.map fun call =>
        if call.ticket = ticket then { call with mail := some a } else call }

/-- The reader ends. -/
def stopReading (c : Client) : Client := { c with reading := false, isOpen := false, slot := none }

/-- The reader meets something. -/
def receive (c : Client) (f : Inbound) : Option (Client × Option Answer) :=
  if c.reading then
    some (match f with
      | .text s => c.deliver (.ok s)
      | .binary => c.deliver (.error unexpectedBinary)
      | .control => c
      | .close | .failure | .finish => c.stopReading, none)
  else none

/-- The end of a message that was written, as far as the reader decides it: what it has left, or
that it will leave nothing. -/
def verdict? (c : Client) (call : Call) : Option Answer :=
  match call.mail with
  | some a => some a
  | none => if c.slot = some call.ticket then none else some (.error .closed)

/-- The owner looks for the answer to its message. -/
def look (c : Client) : Option (Client × Option Answer) :=
  match c.call with
  | none => none
  | some call =>
    if call.written then
      (c.verdict? call).map fun a => ({ c with call := none }, some a)
    else none

/-- The owner gives its message up, unless the reader has decided its end. -/
def expire (c : Client) (after : Duration) : Option (Client × Option Answer) :=
  match c.call with
  | none => none
  | some call =>
    if call.written && (c.verdict? call).isNone then
      some ({ c with slot := none, call := none }, some (.error (.ackTimeout after)))
    else none

/-- The owner closes the socket, which ends the reader. -/
def close (c : Client) : Option (Client × Option Answer) :=
  match c.call with
  | some _ => none
  | none => some ({ c with isOpen := false, reading := false }, none)

/-- What a move makes of the near end, and the end of a message that it brings; nothing if the move
cannot happen. -/
def step (c : Client) : Move → Option (Client × Option Answer)
  | .send payload => c.send payload
  | .wrote failure => c.wrote failure
  | .inbound f => c.receive f
  | .look => c.look
  | .expire after => c.expire after
  | .close => c.close

/-- Makes a move if it can happen. -/
def make (c : Client) (m : Move) : Client × Option Answer := (c.step m).getD (c, none)

/-- The reader meets one thing after the other. -/
def readAll (c : Client) (fs : List Inbound) : Client :=
  fs.foldl (fun c f => (c.make (.inbound f)).1) c

end Client

end LoadRig.Socket
