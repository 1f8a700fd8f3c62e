import LoadRig.Url.Host
/-!
# Addresses with a well-known scheme

An address names a scheme, perhaps a user, a host, perhaps a port, a path, and perhaps a query and
a fragment. The port that belongs to the scheme is not written. All parts are kept in the form in
which they are written, so the text of an address is its parts with the marks between them.

## Main definitions

* `LoadRig.Url.Scheme` — a scheme; `LoadRig.Url.Scheme.defaultPort` is its port.
* `LoadRig.Url` — an address; `LoadRig.Url.text` is its text.
* `LoadRig.Url.port` — the port that is used.
-/

namespace LoadRig

/-- A scheme whose addresses have a host and a path. -/
inductive Url.Scheme where
  | ws
  | wss
  | http
  | https
  | ftp
deriving DecidableEq, Repr

namespace Url.Scheme

/-- The name of a scheme. -/
def name : Scheme → String
  | ws => "ws"
  | wss => "wss"
  | http => "http"
  | https => "https"
  | ftp => "ftp"

/-- The scheme with a name in small letters. -/
def ofName? (cs : List Char) : Option Scheme :=
  [ws, wss, http, https, ftp].find? (·.name.toList == cs)

/-- The port that belongs to a scheme. -/
def defaultPort : Scheme → Nat
  | ws | http => 80
  | wss | https => 443
  | ftp => 21

end Url.Scheme

/-- An address. User name and password are empty where there is none; the path is the list of what
stands behind its slashes. -/
structure Url where
  scheme : Url.Scheme
  user : List Char := []
  password : List Char := []
  host : Url.Host
  /-- The port, if it is not the one that belongs to the scheme. -/
  otherPort : Option Nat := none
  path : List (List Char)
  query : Option (List Char) := none
  fragment : Option (List Char) := none
deriving DecidableEq, Repr

namespace Url

open LoadRig.Text

/-- The port that is used. -/
def port (u : Url) : Nat := u.otherPort.getD u.scheme.defaultPort

/-- User name and password, with the sign behind them. -/
def userText (u : Url) : List Char :=
  if u.user.isEmpty && u.password.isEmpty then []
  else u.user ++ (if u.password.isEmpty then [] else ':' :: u.password) ++ ['@']

/-- The port behind its colon. -/
def portText (u : Url) : List Char :=
  match u.otherPort with
  | none => []
  | some p => ':' :: digits p

/-- The path with its slashes. -/
def pathText (u : Url) : List Char := u.path.flatMap ('/' :: ·)

/-- The text of an address. -/
def text (u : Url) : List Char :=
  u.scheme.name.toList ++ [':', '/', '/'] ++ u.userText ++ u.host.text ++ u.portText ++ u.pathText ++
    (match u.query with
      | none => []
      | some q => '?' :: q) ++
    (match u.fragment with
      | none => []
      | some f => '#' :: f)

end Url

end LoadRig
