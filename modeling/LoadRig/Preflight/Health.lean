import LoadRig.Http.Response
import LoadRig.Json.Value
import LoadRig.Url.Read
/-!
# Asking for the health report

The health report is asked for by a plain request. What counts is that an answer comes, that its
status is 200, and that its body is JSON; what the report says is not looked at. An answer that
points elsewhere is followed, and a server that always points elsewhere never gives an answer.

## Main definitions

* `LoadRig.Preflight.Body` — the body of an answer, or that it is cut off.
* `LoadRig.Preflight.bodyOf` — the body by the fields of the answer.
* `LoadRig.Preflight.HealthCheck` — what came of the request; `LoadRig.Preflight.healthOf` finds it.
-/

namespace LoadRig.Preflight

open LoadRig.Http LoadRig.Text

/-- The greatest number of fields in an answer. -/
def mostFields : Nat := 100

/-- The body of an answer. -/
inductive Body where
  | whole (bytes : List Char)
  /-- It ends before it should, or is broken. -/
  | broken
deriving DecidableEq, Repr

/-- Reads chunks of a body: a line with the length in hexadecimal, and the bytes with a line end
behind them, up to a chunk of no length. -/
def readChunks? : Nat → List Char → Option (List Char)
  | 0, _ => none
  | fuel + 1, cs => do
    let ds := cs.takeWhile fun c => (hexValue? c).isSome
    if ds.isEmpty then none
    let n := ds.foldl (fun n c => 16 * n + (hexValue? c).getD 0) 0
    match (cs.dropWhile (· != '\r')) with
    | '\r' :: '\n' :: rest =>
      if n = 0 then some []
      else if rest.length < n + 2 || (rest.drop n).take 2 != ['\r', '\n'] then none
      else
        let more ← readChunks? fuel (rest.drop (n + 2))
        some (rest.take n ++ more)
    | _ => none

/-- The body of an answer, or nothing if its fields make no sense. -/
def bodyOf? (r : Response) : Option Body :=
  if r.status = 204 || r.status = 304 then some (.whole [])
  else if !r.isOld && (r.field? "transfer-encoding").isSome then
    if r.hasField "transfer-encoding" "chunked" then
      match readChunks? (r.rest.length + 1) r.rest with
      | some bytes => some (.whole bytes)
      | none => some .broken
    else some (.whole r.rest)
  else
    match r.fields.filter (·.1 == "content-length".toList) with
    | [] => some (.whole r.rest)
    | (_, v) :: others =>
      match readDigits? v with
      | none => none
      | some n =>
        if others.any (·.2 != v) then none
        else if r.rest.length < n then some .broken
        else some (.whole (r.rest.take n))

/-- Whether bytes are a JSON text. -/
def isJson (bytes : List Char) : Bool :=
  let text : ByteArray := ⟨(bytes.map fun c => UInt8.ofNat c.toNat).toArray⟩
  match String.fromUTF8? text with
  | none => false
  | some s => (Json.Value.ofText? s.toList).isSome

/-- What came of a request. -/
inductive HealthCheck where
  /-- No answer. -/
  | noAnswer
  /-- An answer with a status, and whether the body is JSON. -/
  | answered (status : Nat) (isJson : Bool)
deriving DecidableEq, Repr

/-- Whether the check is passed. -/
def HealthCheck.passed : HealthCheck → Bool
  | noAnswer => false
  | answered status isJson => status = 200 && isJson

/-- Whether an answer points elsewhere. -/
def pointsElsewhere (r : Response) : Bool :=
  [301, 302, 303, 307, 308].contains r.status &&
    (match r.field? "location" with
      | none => false
      | some place =>
        match Url.read place with
        | .ok _ => true
        | .error .relative => true
        | .error _ => false)

/-- What comes of a request that is answered by a text. Provisional answers are passed over. -/
def healthOf : Nat → List Char → HealthCheck
  | 0, _ => .noAnswer
  | fuel + 1, cs =>
    match Response.read mostFields cs with
    | .error _ => .noAnswer
    | .ok none => .noAnswer
    | .ok (some r) =>
      if 100 ≤ r.status && r.status < 200 && r.status != 101 then healthOf fuel r.rest
      else if r.status < 100 || pointsElsewhere r then .noAnswer
      else
        match bodyOf? r with
        | none => .noAnswer
        | some .broken => .answered r.status false
        | some (.whole bytes) => .answered r.status (isJson bytes)

end LoadRig.Preflight
