import LoadRig.Config.OfToml
import LoadRig.Preflight.Checks
import LoadRig.Program.Arguments
import LoadRig.Program.Ending
/-!
# The preflight program

The program reads its configuration, checks the target address, and then makes the two checks, each
of which tells of itself on a line. It ends well only if both are passed.

## Main definitions

* `LoadRig.PreflightError` — why the program fails; its `chain` is what is told of it.
* `LoadRig.runPreflight` — the whole program.
-/

namespace LoadRig

open LoadRig.Preflight LoadRig.Text

/-- Why the preflight program fails. -/
inductive PreflightError where
  | config (path : String) (cause : ConfigError)
  | target (address : String) (cause : TargetError)
  | health (socket : Url)
  | checks (failures : Nat)
deriving DecidableEq, Repr

/-- What was tried, and why it failed. -/
def PreflightError.chain : PreflightError → List String
  | config path cause => ("Failed to load config from " ++ debugQuoted path) :: cause.chain
  | target address cause => ("Invalid target.base_url: " ++ address) :: cause.chain
  | health socket => ["Cannot derive HTTP URL from " ++ String.ofList socket.text]
  | checks failures =>
    ["Preflight failed: " ++ digitString failures ++ " required check(s) failed"]

namespace PreflightArguments

/-- The configuration in a file, or the default one, with the target of the command line. -/
def configure (a : PreflightArguments) (files : Files) : Except PreflightError Config := do
  let c ← match a.config with
    | none => .ok {}
    | some path => (Config.ofFile files path).mapError (.config path)
  return { c with target := { c.target with baseUrl := a.target.getD c.target.baseUrl } }

/-- What is told before the checks. -/
def headlines (socket health : Url) : List String :=
  ["", "=== Preflight ===", "Target: " ++ String.ofList socket.text,
    "Health: " ++ String.ofList health.text]

/-- What is told of the checks. -/
def checkLines (a : PreflightArguments) (c : Config) (health : Url) (r : Checks) : List String :=
  [healthLine (String.ofList health.pathText) r.health 0,
    roundTripLine ((Target.webSocket c.target.baseUrl).endpoint a.room) r.roundTrip 0 0]

/-- Runs the program: the lines that it tells, and how many checks were not passed. -/
def run (a : PreflightArguments) (files : Files) (s : Surroundings) (now : Time.Instant) :
    Except PreflightError (List String × Nat) := do
  let c ← a.configure files
  let socket ← (socketUrl c.target.baseUrl).mapError (.target c.target.baseUrl)
  let health ← match healthUrl? socket with
    | some u => .ok u
    | none => .error (.health socket)
  let r := check s c a.room health now
  return (headlines socket health ++ a.checkLines c health r, r.failures)

end PreflightArguments

/-- The whole program. -/
def runPreflight (words : List String) (files : Files) (s : Surroundings) (now : Time.Instant) :
    Ending :=
  match PreflightArguments.read words with
  | .error e => .misused PreflightArguments.program e
  | .ok a =>
    match a.run files s now with
    | .error e => .failed [] e.chain
    | .ok (lines, 0) => .good (lines ++ ["", "Preflight OK."])
    | .ok (lines, n) => .failed lines (PreflightError.checks n).chain

end LoadRig
