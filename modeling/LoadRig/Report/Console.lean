import LoadRig.Decimal.Layout
import LoadRig.Phase
/-!
# Reports on the console

After a run each phase, the whole run and the statistics are told in blocks of lines. A block begins
with an empty line and a headline; ratios have two places.

## Main definitions

* `LoadRig.PhaseReport.lines`, `LoadRig.RunReport.overallLines`, `LoadRig.Statistics.lines`
* `LoadRig.RunReport.consoleLines` — all blocks of a run.
-/

namespace LoadRig

open LoadRig.Text

namespace Console

/-- A name and what it stands for. -/
def entry (name value : String) : String := name ++ ": " ++ value

/-- A name and a number. -/
def count (name : String) (n : Nat) : String := entry name (digitString n)

/-- A number of milliseconds. -/
def millis (n : Nat) : String := digitString n ++ "ms"

/-- A double with two places. -/
def ratio (x : Float) : String := String.ofList (Decimal.twoPlaces x)

/-- A rate in messages. -/
def rate (x : Float) : String := ratio x ++ " msg/s"

/-- A number with blanks before it up to a width. -/
def column (width n : Nat) : String := String.ofList (padLeft width ' ' (digits n))

/-- The first lines of a block. -/
def headline (title : String) : List String := ["", "=== " ++ title ++ " ==="]

/-- What counters say, and the time and the rate of what they counted. -/
def outcomeLines (c : Counters) (elapsedMs : Nat) (throughput : Float) : List String :=
  [count "Succeeded" c.succeeded, count "Failed" c.failed, count "Connections" c.connections,
    count "Reconnections" c.reconnections, entry "Wall time" (millis elapsedMs),
    entry "Throughput" (rate throughput)]

/-- A line about a producer that did not make all messages. -/
def stoppedEarlyLines (r : ProducerReport) : List String :=
  if r.stoppedEarly then
    [entry "Generator stopped early"
      (digitString r.produced ++ "/" ++ digitString r.requested ++ " produced")]
  else []

/-- The line of a kind. -/
def kindLine (k : KindShare) : String :=
  "  " ++ k.kind.name ++ " " ++ column 10 k.count ++ " (" ++ ratio k.percent ++ "%)"

/-- The line of a room. -/
def roomLine (r : RoomThroughput) : String :=
  "  room " ++ column 3 r.room ++ ": " ++ column 8 r.messages ++ " msgs  " ++ rate r.rate

end Console

open Console

/-- The block of a phase. -/
def PhaseReport.lines (r : PhaseReport) : List String :=
  headline (r.kind.name ++ " phase") ++
    [count "Messages planned" r.messages, count "Senders" r.sendersStarted] ++
    outcomeLines r.counters r.elapsedMs r.throughput ++ stoppedEarlyLines r.producer

/-- The block of the whole run. -/
def RunReport.overallLines (r : RunReport) : List String :=
  headline "Overall" ++
    outcomeLines r.overall.counters r.overall.elapsedMs r.overall.throughput

/-- The lines about latencies. -/
def LatencySummary.lines (l : LatencySummary) : List String :=
  [entry "Latency mean" (ratio l.mean ++ "ms"), entry "Latency p50" (millis l.p50),
    entry "Latency p95" (millis l.p95), entry "Latency p99" (millis l.p99),
    entry "Latency min/max" (millis l.least ++ " / " ++ millis l.greatest)]

/-- The block of the statistics, with an empty line behind it. -/
def Statistics.lines (s : Statistics) : List String :=
  headline ("Statistics (" ++ digitString s.records ++ " records)") ++
    (if s.isEmpty then ["No records collected."]
      else
        s.latency.lines ++ ["", "Message types:"] ++ s.kinds.map kindLine ++
          ["", "Per-room throughput:"] ++ s.rooms.map roomLine) ++ [""]

/-- All that is told of a run. -/
def RunReport.consoleLines (r : RunReport) (s : Statistics) : List String :=
  r.warmup.lines ++ (r.main.toList.flatMap (·.lines)) ++ r.overallLines ++ s.lines

end LoadRig
