import LoadRig.Clock.Run
import LoadRig.Config.OfToml
import LoadRig.Program.Arguments
import LoadRig.Program.Ending
import LoadRig.Report.Console
import LoadRig.Report.RunFile
import LoadRig.Socket.Handshake
/-!
# The load program

The program reads its configuration, lets the command line override the number of messages and the
target, makes the run, tells of it on the console and keeps it in a directory. The far side is the
stand-in, or a service behind a socket.

The run takes place on a virtual clock, and there is no network: every socket is unreachable. A
configuration without a seed gets one from outside.

## Main definitions

* `LoadRig.LoadError` — why the program fails; its `chain` is what is told of it.
* `LoadRig.LoadArguments.configure` — the configuration after overrides.
* `LoadRig.LoadArguments.service` — the far side.
* `LoadRig.runLoad` — the whole program.
-/

namespace LoadRig

open LoadRig.Text

/-- Why the load program fails. -/
inductive LoadError where
  | config (path : String) (cause : ConfigError)
  /-- The configuration is usable in itself, but not with what the command line says. -/
  | overridden (cause : ConfigError)
  | mode (word : String)
  | keep (cause : KeepError)
deriving DecidableEq, Repr

/-- What was tried, and why it failed. -/
def LoadError.chain : LoadError → List String
  | config path cause => ("Failed to load config from " ++ debugQuoted path) :: cause.chain
  | overridden cause => "Invalid configuration after overrides" :: cause.chain
  | mode word => ["Invalid mode: " ++ word ++ ", must be 'mock' or 'ws'"]
  | keep cause => cause.chain

/-- What the program finds around it. -/
structure LoadSurroundings where
  files : Files
  /-- The world clock when the run begins, in milliseconds since 1970. -/
  epoch : Int
  /-- The seed of a run whose configuration has none. -/
  seed : Nat

namespace LoadArguments

/-- The configuration in a file, or the default one. -/
def base (a : LoadArguments) (files : Files) : Except LoadError Config :=
  match a.config with
  | none => .ok {}
  | some path => (Config.ofFile files path).mapError (.config path)

/-- A configuration with what the command line says in place of its own. -/
def override (a : LoadArguments) (c : Config) : Config :=
  { c with
    load := { c.load with totalMessages := a.totalMessages.getD c.load.totalMessages }
    target := { c.target with baseUrl := a.target.getD c.target.baseUrl } }

/-- The configuration after overrides. -/
def configure (a : LoadArguments) (files : Files) : Except LoadError Config := do
  ((a.override (← a.base files)).validate).mapError .overridden

/-- The stand-in takes two milliseconds for an acknowledgement. -/
def standIn : MockService := { ackDelay := .ofMillis 2 }

/-- The far side that a word asks for. -/
def service (a : LoadArguments) (c : Config) : Except LoadError Service :=
  if a.mode = "mock" then .ok (.mock standIn)
  else if a.mode = "ws" then .ok (.unreachable c.target.baseUrl Socket.withoutNetwork)
  else .error (.mode a.mode)

/-- What is kept of a run that has come to its end. -/
def runFile (a : LoadArguments) (c : Config) (r : RunReport) (course : Clock.Course) : RunFile :=
  { writtenAt := course.shared.instant
    mode := a.mode
    target := c.target.baseUrl
    totalMessages := c.load.totalMessages
    report := r
    statistics := r.records.statistics }

/-- Runs the program, with the lines that are told up to the end of the run. -/
def run (a : LoadArguments) (s : LoadSurroundings) :
    Except LoadError (List String × Except LoadError Files) := do
  let c ← a.configure s.files
  let service ← a.service c
  let seeded := { c with load := { c.load with seed := some (c.load.seed.getD s.seed) } }
  let (report, course) := Clock.runAll seeded (.start service s.epoch none)
  let file := a.runFile c report course
  return (report.consoleLines file.statistics, (file.keep a.resultsDir s.files).mapError .keep)

end LoadArguments

/-- The whole program: how it ends, and the files that it leaves. -/
def runLoad (words : List String) (s : LoadSurroundings) : Ending × Files :=
  match LoadArguments.read words with
  | .error e => (.misused LoadArguments.program e, s.files)
  | .ok a =>
    match a.run s with
    | .error e => (.failed [] e.chain, s.files)
    | .ok (lines, .error e) => (.failed lines e.chain, s.files)
    | .ok (lines, .ok files) => (.good lines, files)

end LoadRig
