import LoadRig.Config.Basic
import LoadRig.Toml.Document
/-!
# Configurations in TOML

A configuration is a document with one table for each group of parameters and one key for each
parameter. What is missing has its default, in a group as in the whole; names that mean nothing are
passed over. A group may also be a list of its parameters in order, of which the last ones may be
missing, and a date in place of a group names no parameter.

## Main definitions

* `LoadRig.Config.ofTables?` — the configuration in a document that was read.
* `LoadRig.Config.ofToml` — the configuration in a text, if it breaks no rule.
* `LoadRig.Config.ofFile` — the same for a file.
-/

namespace LoadRig

open LoadRig.Toml

namespace Config

/-- The parameters of a group by their names, in the order of the names; nothing if the item is no
group. -/
def parameters? (names : List String) : Option Item → Option (List (Option Item))
  | none => some (names.map fun _ => none)
  | some (.table _ es) => some (names.map fun name => Entries.find? name.toList es)
  | some (.inline es) => some (names.map fun name => Entries.find? name.toList es)
  | some (.array items) =>
    if items.length ≤ names.length then
      some (items.map some ++ List.replicate (names.length - items.length) none)
    else none
  | some .moment => some (names.map fun _ => none)
  | some _ => none

/-- A whole number below a limit. -/
def number? (limit : Nat) (fallback : Nat) : Option Item → Option Nat
  | none => some fallback
  | some (.integer n) => if 0 ≤ n && n < limit then some n.toNat else none
  | some _ => none

/-- A number of sixty-four bits. -/
def wide? : Nat → Option Item → Option Nat := number? wideLimit

/-- A number of thirty-two bits. -/
def narrow? : Nat → Option Item → Option Nat := number? narrowLimit

/-- A text. -/
def text? (fallback : String) : Option Item → Option String
  | none => some fallback
  | some (.string s) => some (String.ofList s)
  | some _ => none

/-- A number of sixty-four bits that may be missing. -/
def seed? : Option Item → Option (Option Nat)
  | none => some none
  | some item => (wide? 0 (some item)).map some

/-- Where messages go. -/
def target? (item : Option Item) : Option TargetConfig := do
  match ← parameters? ["base_url", "connect_timeout_ms", "ack_timeout_ms"] item with
  | [baseUrl, connectTimeoutMs, ackTimeoutMs] =>
    let d : TargetConfig := {}
    return { baseUrl := ← text? d.baseUrl baseUrl
             connectTimeoutMs := ← wide? d.connectTimeoutMs connectTimeoutMs
             ackTimeoutMs := ← wide? d.ackTimeoutMs ackTimeoutMs }
  | _ => none

/-- What is sent. -/
def load? (item : Option Item) : Option LoadConfig := do
  match ← parameters? ["total_messages", "queue_capacity", "rooms", "content_pool_size", "seed"]
      item with
  | [totalMessages, queueCapacity, rooms, contentPoolSize, seed] =>
    let d : LoadConfig := {}
    return { totalMessages := ← wide? d.totalMessages totalMessages
             queueCapacity := ← wide? d.queueCapacity queueCapacity
             rooms := ← narrow? d.rooms rooms
             contentPoolSize := ← wide? d.contentPoolSize contentPoolSize
             seed := ← seed? seed }
  | _ => none

/-- The first phase. -/
def warmup? (item : Option Item) : Option WarmupConfig := do
  match ← parameters? ["threads", "messages_per_thread"] item with
  | [threads, messagesPerThread] =>
    let d : WarmupConfig := {}
    return { threads := ← wide? d.threads threads
             messagesPerThread := ← wide? d.messagesPerThread messagesPerThread }
  | _ => none

/-- The second phase. -/
def mainPhase? (item : Option Item) : Option MainPhaseConfig := do
  match ← parameters? ["threads"] item with
  | [threads] => return { threads := ← wide? ({} : MainPhaseConfig).threads threads }
  | _ => none

/-- How often a message is tried. -/
def retry? (item : Option Item) : Option RetryConfig := do
  match ← parameters? ["max_attempts", "base_backoff_ms"] item with
  | [maxAttempts, baseBackoffMs] =>
    let d : RetryConfig := {}
    return { maxAttempts := ← narrow? d.maxAttempts maxAttempts
             baseBackoffMs := ← wide? d.baseBackoffMs baseBackoffMs }
  | _ => none

/-- How long a sender waits at the queue. -/
def worker? (item : Option Item) : Option WorkerConfig := do
  match ← parameters? ["poll_timeout_ms"] item with
  | [pollTimeoutMs] => return { pollTimeoutMs := ← wide? ({} : WorkerConfig).pollTimeoutMs pollTimeoutMs }
  | _ => none

/-- The configuration in the tables of a document. -/
def ofTables? (es : Entries) : Option Config := do
  let group (name : String) : Option Item := es.find? name.toList
  return { target := ← target? (group "target")
           load := ← load? (group "load")
           warmup := ← warmup? (group "warmup")
           mainPhase := ← mainPhase? (group "main_phase")
           retry := ← retry? (group "retry")
           worker := ← worker? (group "worker") }

/-- The configuration in a text. -/
def ofToml (text : List Char) : Except ConfigError Config :=
  match (Toml.parse? text).bind ofTables? with
  | none => .error .malformed
  | some c => c.validate

/-- The configuration in a file. -/
def ofFile (files : Files) (path : String) : Except ConfigError Config :=
  match files.read path with
  | .error e => .error (.unreadable path e)
  | .ok text => ofToml text.toList

end Config

end LoadRig
