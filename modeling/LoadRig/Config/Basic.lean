import LoadRig.Files
import LoadRig.Text.Debug
import LoadRig.Time.Duration
import LoadRig.Word
/-!
# Run parameters

A run is described by six groups of parameters, each of which has a default. Times are given in
milliseconds. Ten rules make a configuration usable; they are checked in a fixed order and the
first that fails is reported.

The number of messages is split over the two phases: warmup takes as many as its workers may send,
the main phase what is left.

## Main definitions

* `LoadRig.Config` — the parameters with their defaults.
* `LoadRig.ConfigRule`, `LoadRig.Config.broken?` — the rules and the first broken one.
* `LoadRig.ConfigError` — why there is no usable configuration.
* `LoadRig.Config.warmupTotal`, `LoadRig.Config.mainTotal` — the split.
-/

namespace LoadRig

/-- Where messages go and how long to wait there. -/
structure TargetConfig where
  /-- The base address, to which a room number is appended. -/
  baseUrl : String := "ws://localhost:8080/chat/"
  connectTimeoutMs : Nat := 10000
  ackTimeoutMs : Nat := 5000
deriving DecidableEq, Repr, Inhabited

/-- What is sent. -/
structure LoadConfig where
  totalMessages : Nat := 500000
  queueCapacity : Nat := 10000
  rooms : Nat := 20
  contentPoolSize : Nat := 50
  /-- Where absent, the messages of a run cannot be foretold. -/
  seed : Option Nat := none
deriving DecidableEq, Repr, Inhabited

/-- The first phase. -/
structure WarmupConfig where
  threads : Nat := 32
  messagesPerThread : Nat := 1000
deriving DecidableEq, Repr, Inhabited

/-- The second phase. -/
structure MainPhaseConfig where
  threads : Nat := 128
deriving DecidableEq, Repr, Inhabited

/-- How often a message is tried, and the pause after its first failure. -/
structure RetryConfig where
  maxAttempts : Nat := 5
  baseBackoffMs : Nat := 100
deriving DecidableEq, Repr, Inhabited

/-- How long a sender waits at an empty queue before it asks again. -/
structure WorkerConfig where
  pollTimeoutMs : Nat := 5000
deriving DecidableEq, Repr, Inhabited

/-- All parameters of a run. -/
structure Config where
  target : TargetConfig := {}
  load : LoadConfig := {}
  warmup : WarmupConfig := {}
  mainPhase : MainPhaseConfig := {}
  retry : RetryConfig := {}
  worker : WorkerConfig := {}
deriving DecidableEq, Repr, Inhabited

/-! ### Rules -/

/-- What a usable configuration must satisfy. -/
inductive ConfigRule where
  | baseUrl
  | connectTimeout
  | ackTimeout
  | queueCapacity
  | rooms
  | contentPoolSize
  | warmupThreads
  | mainThreads
  | maxAttempts
  | pollTimeout
deriving DecidableEq, Repr

/-- The text of a rule. -/
def ConfigRule.message : ConfigRule → String
  | baseUrl => "target.base_url must not be empty"
  | connectTimeout => "target.connect_timeout_ms must be > 0"
  | ackTimeout => "target.ack_timeout_ms must be > 0"
  | queueCapacity => "load.queue_capacity must be > 0"
  | rooms => "load.rooms must be > 0"
  | contentPoolSize => "load.content_pool_size must be > 0"
  | warmupThreads => "warmup.threads must be > 0"
  | mainThreads => "main_phase.threads must be > 0"
  | maxAttempts => "retry.max_attempts must be > 0"
  | pollTimeout => "worker.poll_timeout_ms must be > 0"

/-- The rules in the order in which they are checked, each with what it says of `c`. -/
def Config.checks (c : Config) : List (ConfigRule × Bool) :=
  [(.baseUrl, !c.target.baseUrl.isEmpty),
    (.connectTimeout, 0 < c.target.connectTimeoutMs),
    (.ackTimeout, 0 < c.target.ackTimeoutMs),
    (.queueCapacity, 0 < c.load.queueCapacity),
    (.rooms, 0 < c.load.rooms),
    (.contentPoolSize, 0 < c.load.contentPoolSize),
    (.warmupThreads, 0 < c.warmup.threads),
    (.mainThreads, 0 < c.mainPhase.threads),
    (.maxAttempts, 0 < c.retry.maxAttempts),
    (.pollTimeout, 0 < c.worker.pollTimeoutMs)]

/-- The first rule that a configuration breaks. -/
def Config.broken? (c : Config) : Option ConfigRule :=
  (c.checks.find? (!·.2)).map (·.1)

/-- Why there is no usable configuration. -/
inductive ConfigError where
  | unreadable (path : String) (cause : FileError)
  | malformed
  | invalid (rule : ConfigRule)
deriving DecidableEq, Repr

/-- The text of a configuration error. Of a text that cannot be read it says only that. -/
def ConfigError.message : ConfigError → String
  | unreadable path cause => "failed to read config " ++ Text.debugQuoted path ++ ": " ++ cause.message
  | malformed => "failed to parse config"
  | invalid rule => "invalid config: " ++ rule.message

/-- What is told of a configuration error, from the general to the particular. -/
def ConfigError.chain : ConfigError → List String
  | unreadable path cause => [(unreadable path cause).message, cause.message]
  | e => [e.message]

/-- A configuration that breaks no rule. -/
def Config.validate (c : Config) : Except ConfigError Config :=
  match c.broken? with
  | some rule => .error (.invalid rule)
  | none => .ok c

/-! ### Times -/

/-- How long a handshake may take. -/
def TargetConfig.connectTimeout (t : TargetConfig) : Duration := .ofMillis t.connectTimeoutMs

/-- How long an acknowledgement may take. -/
def TargetConfig.ackTimeout (t : TargetConfig) : Duration := .ofMillis t.ackTimeoutMs

/-- The pause after the first failed attempt. -/
def RetryConfig.baseBackoff (r : RetryConfig) : Duration := .ofMillis r.baseBackoffMs

/-- How long one look at the queue may take. -/
def WorkerConfig.pollTimeout (w : WorkerConfig) : Duration := .ofMillis w.pollTimeoutMs

/-! ### The two phases -/

/-- The most that warmup may send; it stops at the greatest number of sixty-four bits. -/
def Config.warmupCeiling (c : Config) : Nat :=
  min (c.warmup.threads * c.warmup.messagesPerThread) wordMax

/-- The messages of the warmup phase: never more than there are. -/
def Config.warmupTotal (c : Config) : Nat := min c.load.totalMessages c.warmupCeiling

/-- The messages that warmup leaves. -/
def Config.mainTotal (c : Config) : Nat := c.load.totalMessages - c.warmupTotal

end LoadRig
