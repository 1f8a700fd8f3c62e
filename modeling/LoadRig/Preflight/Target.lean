import LoadRig.Url.Read
/-!
# The target of a preflight check

Before a run the target is checked: it must be an address of a socket, without query or fragment.
Beside the socket the service answers requests about its health, at the same host and port, over the
corresponding plain protocol.

## Main definitions

* `LoadRig.Preflight.TargetError` — why a target is refused; its `chain` is what is told of it.
* `LoadRig.Preflight.socketUrl` — the address of the socket.
* `LoadRig.Preflight.healthUrl?` — the address of the health report; `LoadRig.Preflight.healthUrl` is
  what comes of it.
-/

namespace LoadRig.Preflight

/-- Why a target is refused. -/
inductive TargetError where
  | unreadable (target : String) (cause : UrlError)
  | notASocket (target : String)
  | hasQuery (target : String)
deriving DecidableEq, Repr

/-- What is said of a refused target, from the general to the particular. -/
def TargetError.chain : TargetError → List String
  | unreadable target cause => ["Invalid URL: " ++ target, cause.message]
  | notASocket target => ["Target URL must be ws:// or wss:// (got " ++ target ++ ")"]
  | hasQuery target => ["Target URL must not include query/fragment (got " ++ target ++ ")"]

/-- The address of the socket that a target names. A socket address always has a host. -/
def socketUrl (target : String) (naming : Url.Naming := .ascii) : Except TargetError Url :=
  match Url.read target.toList naming with
  | .error e => .error (.unreadable target e)
  | .ok (.foreign _) => .error (.notASocket target)
  | .ok (.web u) =>
    if u.scheme = .ws ∨ u.scheme = .wss then
      if u.query.isSome || u.fragment.isSome then .error (.hasQuery target) else .ok u
    else .error (.notASocket target)

/-- Brings the address of a socket to that of the health report beside it. -/
def healthUrl? (socket : Url) : Option Url := do
  let scheme := if socket.scheme = .wss then "https" else "http"
  let plain ← socket.setScheme? scheme.toList
  return plain.setPath "/health".toList

/-- The address of the health report beside a socket. -/
def healthUrl (socket : Url) : Url :=
  { socket with
    scheme := if socket.scheme = .wss then .https else .http
    path := ["health".toList], query := none, fragment := none }

end LoadRig.Preflight
