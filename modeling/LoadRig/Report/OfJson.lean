import LoadRig.Report.ToJson
/-!
# Reading reports back

A report that was kept in JSON can be read back, without its records. A group of fields is an
object, in which names that mean nothing are passed over, or an array of exactly its fields in
order. Counts must be integers in range; a rate may be any number. A phase that did not take place
may be null, and in an object it may be missing. A word out of a fixed set is a string, or an object
whose only member has that name and is null.

## Main definitions

* `LoadRig.Json.Value.fields?` — the fields of a group.
* `LoadRig.RunReport.ofJson?` — reads the report of a run.
-/

namespace LoadRig

open LoadRig.Json

namespace Json.Value

/-- The fields of a group in the order of `names`; in an object some may be missing. -/
def fields? (names : List String) : Value → Option (List (Option Value))
  | object members => some (names.map fun name => (object members).member? name)
  | array items => if items.length = names.length then some (items.map some) else none
  | _ => none

/-- A natural number below a limit. -/
def nat? (limit : Nat) : Value → Option Nat
  | int n => if 0 ≤ n && n < limit then some n.toNat else none
  | _ => none

/-- A number of sixty-four bits. -/
def wide? : Value → Option Nat := nat? wideLimit

/-- A number of thirty-two bits. -/
def narrow? : Value → Option Nat := nat? narrowLimit

/-- Any number, as a double. -/
def number? : Value → Option Float
  | int n => some (if n < 0 then -countFloat n.natAbs else countFloat n.toNat)
  | float x => some x
  | _ => none

/-- A string. -/
def string? : Value → Option String
  | string s => some (String.ofList s)
  | _ => none

/-- A word out of a fixed set. -/
def word? : Value → Option String
  | string s => some (String.ofList s)
  | object [(name, null)] => some (String.ofList name)
  | _ => none

/-- All items of an array. -/
def items? {α : Type} (read? : Value → Option α) : Value → Option (List α)
  | array items => items.mapM read?
  | _ => none

end Json.Value

/-- The four counts. -/
def Counters.ofJson? (v : Value) : Option Counters := do
  match ← v.fields? ["succeeded", "failed", "connections", "reconnections"] with
  | [succeeded, failed, connections, reconnections] =>
    return { succeeded := ← (← succeeded).wide?
             failed := ← (← failed).wide?
             connections := ← (← connections).wide?
             reconnections := ← (← reconnections).wide? }
  | _ => none

/-- Whether there is nothing to say: the detail is missing or null. -/
def saysNothing : Option Value → Bool
  | none => true
  | some .null => true
  | some _ => false

/-- Why a sender left. In an array the detail may not be missing. -/
def SenderExit.ofJson? (v : Value) : Option SenderExit := do
  match ← v.fields? ["reason", "detail"] with
  | [reason, detail] =>
    match ← (← reason).word? with
    | "connect_failed" => return .connectFailed (← (← detail).string?)
    | word =>
      if saysNothing detail then
        [quotaReached, queueDrained, shutdown].find? (·.reason == word)
      else none
  | _ => none

/-- What a sender did. -/
def SenderReport.ofJson? (v : Value) : Option SenderReport := do
  match ← v.fields? ["id", "room_id", "quota", "processed", "succeeded", "failed", "exit"] with
  | [id, room, quota, processed, succeeded, failed, exit] =>
    return { id := ← (← id).wide?
             room := ← (← room).narrow?
             quota := ← (← quota).wide?
             processed := ← (← processed).wide?
             succeeded := ← (← succeeded).wide?
             failed := ← (← failed).wide?
             exit := ← SenderExit.ofJson? (← exit) }
  | _ => none

/-- How many messages were asked for and how many were put in. -/
def ProducerReport.ofJson? (v : Value) : Option ProducerReport := do
  match ← v.fields? ["requested", "produced"] with
  | [requested, produced] =>
    return { requested := ← (← requested).wide?, produced := ← (← produced).wide? }
  | _ => none

/-- What came of a phase, without its records. -/
def PhaseReport.ofJson? (v : Value) : Option PhaseReport := do
  match ← v.fields? ["kind", "messages", "senders_started", "counters", "elapsed_ms", "throughput",
      "generator", "senders"] with
  | [kind, messages, sendersStarted, counters, elapsedMs, throughput, producer, senders] =>
    return { kind := ← PhaseKind.ofName? (← (← kind).word?)
             messages := ← (← messages).wide?
             sendersStarted := ← (← sendersStarted).wide?
             counters := ← Counters.ofJson? (← counters)
             elapsedMs := ← (← elapsedMs).wide?
             throughput := ← (← throughput).number?
             producer := ← ProducerReport.ofJson? (← producer)
             senders := ← (← senders).items? SenderReport.ofJson?
             records := RecordSet.concat [] }
  | _ => none

/-- What came of all phases together. -/
def OverallSummary.ofJson? (v : Value) : Option OverallSummary := do
  match ← v.fields? ["counters", "elapsed_ms", "throughput"] with
  | [counters, elapsedMs, throughput] =>
    return { counters := ← Counters.ofJson? (← counters)
             elapsedMs := ← (← elapsedMs).wide?
             throughput := ← (← throughput).number? }
  | _ => none

/-- A phase that may not have taken place. -/
def PhaseReport.ofOptional? : Option Value → Option (Option PhaseReport)
  | none => some none
  | some .null => some none
  | some v => (PhaseReport.ofJson? v).map some

/-- What came of a run, without its records. -/
def RunReport.ofJson? (v : Value) : Option RunReport := do
  match ← v.fields? ["warmup", "main", "overall"] with
  | [warmup, main, overall] =>
    return { warmup := ← PhaseReport.ofJson? (← warmup)
             main := ← PhaseReport.ofOptional? main
             overall := ← OverallSummary.ofJson? (← overall)
             records := RecordSet.concat [] }
  | _ => none

end LoadRig
