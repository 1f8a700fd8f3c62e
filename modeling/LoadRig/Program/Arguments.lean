import LoadRig.CommandLine
import LoadRig.Net.SocketAddress
import LoadRig.Text.Number
import LoadRig.Word
/-!
# What the three programs are told

There is a program that makes the load, one that checks a target beforehand, and the reference
service. This module says which settings each of them has and what they are when nothing is given.

## Main definitions

* `LoadRig.LoadArguments`, `LoadRig.PreflightArguments`, `LoadRig.ServerArguments`
* `LoadRig.LoadArguments.read` and its like — reads the words behind the name of the program.
-/

namespace LoadRig

open LoadRig.CommandLine LoadRig.Text

/-- What the load program is told. -/
structure LoadArguments where
  config : Option String := none
  mode : String := "ws"
  totalMessages : Option Nat := none
  target : Option String := none
  /-- The time between two notices of progress, in milliseconds. -/
  printEveryMs : Nat := 1000
  resultsDir : String := "results"
deriving DecidableEq, Repr

/-- Reads a number of sixty-four bits. -/
def wideNumber? : String → Option Nat := readNumber? wideLimit

/-- Reads a number of thirty-two bits. It may have either sign, so zero may have a minus before
it. -/
def narrowNumber? (s : String) : Option Nat :=
  match s.toList with
  | '-' :: ds => (readDigits? ds).bind fun n => if n = 0 then some 0 else none
  | _ => readNumber? narrowLimit s

namespace LoadArguments

/-- The load program. -/
def program : Program :=
  { name := "chatload"
    about := "Chat load generator - warmup and main phase against per-room WebSocket endpoints"
    settings :=
      [path "config" "Path to configuration file (defaults are used when omitted)",
        (text "mode" "Connector: mock or ws").withFallback "ws",
        reading wideNumber? "total-messages"
          "Total messages across both phases (overrides config)",
        text "target" "Base WebSocket URL; the room id is appended (overrides config)",
        (reading wideNumber? "print-every-ms"
          "Log progress every N milliseconds (0 disables)").withFallback "1000",
        (path "results-dir" "Directory for CSV and JSON results").withFallback "results"] }

/-- Reads the words behind the name of the program. -/
def read (words : List String) : Except UsageError LoadArguments := do
  let given ← CommandLine.read program.settings words
  let d : LoadArguments := {}
  return { config := value? given "config"
           mode := (value? given "mode").getD d.mode
           totalMessages := (value? given "total-messages").bind wideNumber?
           target := value? given "target"
           printEveryMs := ((value? given "print-every-ms").bind wideNumber?).getD d.printEveryMs
           resultsDir := (value? given "results-dir").getD d.resultsDir }

end LoadArguments

/-- What the preflight program is told. -/
structure PreflightArguments where
  config : Option String := none
  target : Option String := none
  room : Nat := 1
deriving DecidableEq, Repr

namespace PreflightArguments

/-- The preflight program. -/
def program : Program :=
  { name := "preflight"
    about :=
      "Preflight checks before a chat load run (health endpoint + one WebSocket round trip)"
    settings :=
      [path "config" "Path to configuration file (defaults are used when omitted)",
        text "target" "Base WebSocket URL (overrides config)",
        (reading narrowNumber? "room" "Room used for the round-trip probe").withFallback "1"] }

/-- Reads the words behind the name of the program. -/
def read (words : List String) : Except UsageError PreflightArguments := do
  let given ← CommandLine.read program.settings words
  let d : PreflightArguments := {}
  return { config := value? given "config"
           target := value? given "target"
           room := ((value? given "room").bind narrowNumber?).getD d.room }

end PreflightArguments

/-- What the reference service is told. -/
structure ServerArguments where
  bind : Net.SocketAddress := .v4 (.ofNat 0) ⟨8080, by decide⟩
deriving DecidableEq, Repr

namespace ServerArguments

/-- Reads an address to listen at. -/
def address? (s : String) : Option Net.SocketAddress := Net.SocketAddress.parse? s.toList

/-- The reference service. -/
def program : Program :=
  { name := "chat-server"
    about := "Reference room-partitioned chat WebSocket server for load runs"
    settings := [(reading address? "bind" "Address to listen on").withFallback "0.0.0.0:8080"] }

/-- Reads the words behind the name of the program. -/
def read (words : List String) : Except UsageError ServerArguments := do
  let given ← CommandLine.read program.settings words
  let d : ServerArguments := {}
  return { bind := ((value? given "bind").bind address?).getD d.bind }

end ServerArguments

end LoadRig
