import LoadRig.Keyed
import LoadRig.Samples
/-!
# Statistics of a run

Everything here is computed from a closed set of records: the distribution of latencies, the share
of each kind, the rate of each room, and the rate over time in buckets of ten seconds. Ratios are
doubles; everything they are made of is counted exactly.

Latencies are sorted before they are summed, and kinds, rooms and buckets are gathered in maps, so
the order in which senders recorded their messages leaves no trace.

## Main definitions

* `LoadRig.percentile`, `LoadRig.mean`, `LoadRig.LatencySummary`
* `LoadRig.KindShare`, `LoadRig.RoomThroughput`, `LoadRig.ThroughputBucket`
* `LoadRig.Statistics` — the report; `LoadRig.RecordSet.statistics` computes it.
-/

namespace LoadRig

/-- A count as a double. -/
def countFloat (n : Nat) : Float := (UInt64.ofNat n).toFloat

/-! ### Latencies -/

/-- The nearest-rank percentile of an ascending list: the value in place `⌈p * n / 100⌉`, counted
from one and held between the first place and the last. An empty list has percentile zero. -/
def percentile (sorted : List Nat) (p : Nat) : Nat :=
  let rank := (p * sorted.length + 99) / 100
  (sorted[min (rank - 1) (sorted.length - 1)]?).getD 0

/-- The arithmetic mean, summed from the front; zero for no values. -/
def mean (values : List Nat) : Float :=
  if values.isEmpty then 0.0
  else (values.map countFloat).foldl (· + ·) 0.0 / countFloat values.length

/-- The distribution of latencies in milliseconds. -/
structure LatencySummary where
  count : Nat
  mean : Float
  p50 : Nat
  p95 : Nat
  p99 : Nat
  least : Nat
  greatest : Nat
deriving Inhabited

/-- The summary of an ascending list. -/
def LatencySummary.ofSorted (sorted : List Nat) : LatencySummary :=
  { count := sorted.length
    mean := LoadRig.mean sorted
    p50 := percentile sorted 50
    p95 := percentile sorted 95
    p99 := percentile sorted 99
    least := sorted.head?.getD 0
    greatest := sorted.getLast?.getD 0 }

/-- The summary of all latencies, in whatever order they were recorded. -/
def RecordSet.latency (s : RecordSet) : LatencySummary :=
  .ofSorted ((s.records.map (·.latency)).mergeSort (· ≤ ·))

/-! ### Kinds -/

/-- How many messages were of a kind, and what part of all that is in percent. -/
structure KindShare where
  kind : MessageKind
  count : Nat
  percent : Float
deriving Inhabited

/-- The count of every kind that occurs. -/
def RecordSet.kindCounts (s : RecordSet) : List (MessageKind × Nat) :=
  s.records.foldl
    (fun counts r =>
      Keyed.alter (fun a b => a.rank < b.rank) r.kind (fun n => n.getD 0 + 1) counts) []

/-- Whether one count is listed before another: the greater first, and of equal ones the kind that
comes first. -/
def listedBefore (a b : MessageKind × Nat) : Bool :=
  b.2 < a.2 || (a.2 == b.2 && a.1.rank ≤ b.1.rank)

/-- The share of every kind that occurs, the most frequent first. -/
def RecordSet.kindShares (s : RecordSet) : List KindShare :=
  (s.kindCounts.mergeSort listedBefore).map fun (kind, count) =>
    { kind, count, percent := countFloat count * 100.0 / countFloat s.size }

/-! ### Rooms -/

/-- The messages of a room, with the earliest and the latest time of sending. -/
structure RoomSpan where
  messages : Nat
  first : Int
  last : Int
deriving DecidableEq, Repr, Inhabited

/-- A room with one more message, sent at `t`. -/
def RoomSpan.extend (t : Int) : Option RoomSpan → RoomSpan
  | none => ⟨1, t, t⟩
  | some s => ⟨s.messages + 1, min s.first t, max s.last t⟩

/-- The rate of a room over the time in which it was sent to, which counts as one millisecond at
least. -/
structure RoomThroughput where
  room : Nat
  messages : Nat
  span : Int
  rate : Float
deriving Inhabited

/-- Every room that occurs, with its messages and their time span. -/
def RecordSet.roomSpans (s : RecordSet) : List (Nat × RoomSpan) :=
  s.records.foldl
    (fun rooms r => Keyed.alter (fun a b => a < b) r.room (RoomSpan.extend r.sentAt) rooms) []

/-- The rate of every room that occurs, in ascending order of rooms. -/
def RecordSet.roomThroughput (s : RecordSet) : List RoomThroughput :=
  s.roomSpans.map fun (room, r) =>
    let span := max (r.last - r.first) 1
    { room, messages := r.messages, span
      rate := countFloat r.messages * 1000.0 / countFloat span.toNat }

/-! ### Buckets -/

/-- The length of a bucket in milliseconds. -/
def bucketMillis : Nat := 10000

/-- The shortest time, in seconds, over which a rate is taken. -/
def shortestBucket : Float := 0.1

/-- The messages of one stretch of time and their rate. -/
structure ThroughputBucket where
  /-- Seconds since the first message of the run. -/
  start : Nat
  messages : Nat
  duration : Float
  rate : Float
deriving Inhabited

/-- How many messages fall into each of `n` buckets after `first`; a time behind the last bucket
counts for it. -/
def RecordSet.bucketCounts (s : RecordSet) (first : Int) (n : Nat) : Array Nat :=
  s.records.foldl
    (fun counts r => counts.modify (min ((r.sentAt - first).toNat / bucketMillis) (n - 1)) (· + 1))
    (Array.replicate n 0)

/-- The length in milliseconds of bucket `i` of `n` when the whole span is `span`: the last bucket
ends with the last message. -/
def bucketLength (span n i : Nat) : Nat :=
  if i + 1 = n then span - i * bucketMillis else bucketMillis

/-- A length in milliseconds as seconds, not less than the shortest. -/
def bucketSeconds (millis : Nat) : Float :=
  let seconds := countFloat millis / 1000.0
  if seconds < shortestBucket then shortestBucket else seconds

/-- The rate over time, in buckets without gaps from the first message to the last. -/
def RecordSet.buckets (s : RecordSet) : List ThroughputBucket :=
  match s.span? with
  | none => []
  | some (first, last) =>
    let span := (last - first).toNat
    let n := span / bucketMillis + 1
    (s.bucketCounts first n).toList.mapIdx fun i messages =>
      let duration := bucketSeconds (bucketLength span n i)
      { start := i * bucketMillis / 1000, messages, duration
        rate := countFloat messages / duration }

/-! ### The report -/

/-- All statistics of a run. -/
structure Statistics where
  records : Nat := 0
  succeeded : Nat := 0
  failed : Nat := 0
  latency : LatencySummary := .ofSorted []
  kinds : List KindShare := []
  rooms : List RoomThroughput := []
  buckets : List ThroughputBucket := []
deriving Inhabited

/-- Whether there was nothing to count. -/
def Statistics.isEmpty (s : Statistics) : Bool := s.records == 0

/-- The statistics of a set of records. -/
def RecordSet.statistics (s : RecordSet) : Statistics :=
  if s.isEmpty then {}
  else
    { records := s.size
      succeeded := s.count .ok
      failed := s.count .fail
      latency := s.latency
      kinds := s.kindShares
      rooms := s.roomThroughput
      buckets := s.buckets }

end LoadRig
