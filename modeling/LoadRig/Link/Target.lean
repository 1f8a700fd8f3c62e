import LoadRig.Text.Digits
/-!
# Addresses of rooms

A target is a sort of service with a way to name its rooms: the service of the configuration, which
is reached by adding the room number to a base address, the stand-in inside the program, and the
stand-in that follows a script.

## Main definitions

* `LoadRig.Target` — where rooms are; `LoadRig.Target.endpoint` names one.
-/

namespace LoadRig

/-- A service that has rooms. -/
inductive Target where
  | webSocket (baseUrl : String)
  | mock
  | script
deriving DecidableEq, Repr

namespace Target

/-- The name of the sort of service. -/
def name : Target → String
  | webSocket _ => "ws"
  | mock => "mock"
  | script => "script"

/-- The address of a room. A base address gets a slash at its end if it has none. -/
def endpoint (t : Target) (room : Nat) : String :=
  match t with
  | webSocket base =>
    if base.endsWith "/" then base ++ Text.digitString room
    else base ++ "/" ++ Text.digitString room
  | mock => "mock://chat/" ++ Text.digitString room
  | script => "script://" ++ Text.digitString room

end Target

end LoadRig
