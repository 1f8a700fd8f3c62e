import LoadRig.Json.Value
import LoadRig.Phase
/-!
# Reports in JSON

A report is an object whose members stand in the order of its fields, each under the name of its
field in small letters with underscores. Times are whole milliseconds, rates are doubles. The
records themselves are left out: they have a table of their own. Why a sender left is an object of
its own, with a reason and, where there is more to say, a detail.

## Main definitions

* `LoadRig.Counters.json`, `LoadRig.SenderReport.json`, `LoadRig.PhaseReport.json`,
  `LoadRig.RunReport.json` — what came of a run.
* `LoadRig.Statistics.json` — its statistics.
-/

namespace LoadRig

open LoadRig.Json

/-- The four counts. -/
def Counters.json (c : Counters) : Value :=
  .record
    [("succeeded", .ofNat c.succeeded), ("failed", .ofNat c.failed),
      ("connections", .ofNat c.connections), ("reconnections", .ofNat c.reconnections)]

/-! ### Senders -/

/-- The word for why a sender left. -/
def SenderExit.reason : SenderExit → String
  | quotaReached => "quota_reached"
  | queueDrained => "queue_drained"
  | shutdown => "shutdown"
  | connectFailed _ => "connect_failed"

/-- Why a sender left. -/
def SenderExit.json (e : SenderExit) : Value :=
  let detail := match e with
    | connectFailed reason => [("detail", Value.ofString reason)]
    | _ => []
  .record (("reason", .ofString e.reason) :: detail)

/-- What a sender did. -/
def SenderReport.json (r : SenderReport) : Value :=
  .record
    [("id", .ofNat r.id), ("room_id", .ofNat r.room), ("quota", .ofNat r.quota),
      ("processed", .ofNat r.processed), ("succeeded", .ofNat r.succeeded),
      ("failed", .ofNat r.failed), ("exit", r.exit.json)]

/-! ### Phases and runs -/

/-- How many messages were asked for and how many were put in. -/
def ProducerReport.json (r : ProducerReport) : Value :=
  .record [("requested", .ofNat r.requested), ("produced", .ofNat r.produced)]

/-- What came of a phase. -/
def PhaseReport.json (r : PhaseReport) : Value :=
  .record
    [("kind", .ofString r.kind.name), ("messages", .ofNat r.messages),
      ("senders_started", .ofNat r.sendersStarted), ("counters", r.counters.json),
      ("elapsed_ms", .ofNat r.elapsedMs), ("throughput", .float r.throughput),
      ("generator", r.producer.json), ("senders", .array (r.senders.map (·.json)))]

/-- What came of all phases together. -/
def OverallSummary.json (s : OverallSummary) : Value :=
  .record
    [("counters", s.counters.json), ("elapsed_ms", .ofNat s.elapsedMs),
      ("throughput", .float s.throughput)]

/-- What came of a run; a main phase that did not take place is null. -/
def RunReport.json (r : RunReport) : Value :=
  .record
    [("warmup", r.warmup.json), ("main", (r.main.map (·.json)).getD .null),
      ("overall", r.overall.json)]

/-! ### Statistics -/

/-- The distribution of latencies. -/
def LatencySummary.json (l : LatencySummary) : Value :=
  .record
    [("count", .ofNat l.count), ("mean_ms", .float l.mean), ("p50_ms", .ofNat l.p50),
      ("p95_ms", .ofNat l.p95), ("p99_ms", .ofNat l.p99), ("min_ms", .ofNat l.least),
      ("max_ms", .ofNat l.greatest)]

/-- The share of a kind. -/
def KindShare.json (k : KindShare) : Value :=
  .record
    [("kind", .ofString k.kind.name), ("count", .ofNat k.count), ("percent", .float k.percent)]

/-- The rate of a room. -/
def RoomThroughput.json (r : RoomThroughput) : Value :=
  .record
    [("room_id", .ofNat r.room), ("messages", .ofNat r.messages), ("span_ms", .int r.span),
      ("messages_per_sec", .float r.rate)]

/-- The rate in a bucket. -/
def ThroughputBucket.json (b : ThroughputBucket) : Value :=
  .record
    [("start_sec", .ofNat b.start), ("messages", .ofNat b.messages),
      ("duration_sec", .float b.duration), ("messages_per_sec", .float b.rate)]

/-- All statistics of a run. -/
def Statistics.json (s : Statistics) : Value :=
  .record
    [("records", .ofNat s.records), ("succeeded", .ofNat s.succeeded), ("failed", .ofNat s.failed),
      ("latency", s.latency.json), ("kinds", .array (s.kinds.map (·.json))),
      ("rooms", .array (s.rooms.map (·.json))), ("buckets", .array (s.buckets.map (·.json)))]

end LoadRig
