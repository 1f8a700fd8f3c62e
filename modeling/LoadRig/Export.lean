import LoadRig.Csv
import LoadRig.Decimal.Layout
import LoadRig.Files
import LoadRig.Statistics
import LoadRig.Text.Debug
/-!
# Comma-separated results

A run leaves two tables: one row per record, and one row per bucket of the throughput. The header of a
table comes from the names of the fields of its first row. A table without a row still has its header,
which is then written on its own.

## Main definitions

* `LoadRig.Export.camelCase` — the name of a field in a header.
* `LoadRig.Export.table` — the text of a table of rows.
* `LoadRig.Export.latencyTable`, `LoadRig.Export.throughputTable` — the two texts.
* `LoadRig.Export.writeTables` — puts both files into a directory.
* `LoadRig.ExportError` — what can be in the way.
-/

namespace LoadRig

open LoadRig.Text

/-- Why a result file cannot be written. -/
inductive ExportError where
  | directory (path : String) (cause : FileError)
  | file (path : String) (cause : FileError)
  | record (cause : Csv.Uneven)
deriving DecidableEq, Repr

/-- What was tried, and why it failed. -/
def ExportError.chain : ExportError → List String
  | directory path cause => ["Failed to create directory " ++ debugQuoted path, cause.message]
  | file path cause => ["Failed to create " ++ debugQuoted path, cause.message]
  | record cause => [cause.message]

namespace Export

/-- The name of the table of records. -/
def latencyFile : String := "latency_data.csv"

/-- The name of the table of buckets. -/
def throughputFile : String := "throughput.csv"

/-- Numbers in tables: positional while the point stands behind at most sixteen digits or before
at most four zeros, and no plus sign before an exponent. -/
def numberLayout : Decimal.Layout :=
  { leastPoint := -4
    greatestPoint := 16
    plus := []
    nan := ['N', 'a', 'N']
    infinity := ['i', 'n', 'f'] }

/-- The words of a name, which underscores keep apart, put together with a capital letter at the front
of each; the first one has it only on demand. -/
def joinWords : Bool → List Char → List Char
  | _, [] => []
  | capital, c :: cs =>
    if c == '_' then joinWords true cs
    else (if capital then c.toUpper else c) :: joinWords false cs

/-- The name of a field as it stands in a header: its words put together, with a small letter at the
front. -/
def camelCase (name : String) : List Char :=
  match joinWords true name.toList with
  | [] => []
  | c :: cs => c.toLower :: cs

/-- The names of the columns of a record, for a table without one. -/
def latencyHeader : List (List Char) :=
  ["sendTimestamp".toList, "messageType".toList, "latencyMs".toList, "statusCode".toList,
    "roomId".toList]

/-- A record as a row. -/
def latencyRow (r : SampleRecord) : Csv.Row :=
  [(camelCase "send_timestamp", intDigits r.sentAt), (camelCase "message_type", r.kind.name.toList),
    (camelCase "latency_ms", digits r.latency), (camelCase "status_code", r.outcome.name.toList),
    (camelCase "room_id", digits r.room)]

/-- The names of the columns of a bucket, for a table without one. -/
def throughputHeader : List (List Char) :=
  ["bucketStartSec".toList, "messages".toList, "durationSec".toList, "messagesPerSec".toList]

/-- A bucket as a row. -/
def throughputRow (b : ThroughputBucket) : Csv.Row :=
  [(camelCase "bucket_start_sec", digits b.start), (camelCase "messages", digits b.messages),
    (camelCase "duration_sec", numberLayout.text b.duration),
    (camelCase "messages_per_sec", numberLayout.text b.rate)]

/-- A table with a row for each of the things it is about. The header is written on its own if there
are none. -/
def table {α : Type} (header : List (List Char)) (row : α → Csv.Row) (items : List α) :
    Except Csv.Uneven String := do
  let w : Csv.Writer := {}
  let w ← if items.isEmpty then w.write header else .ok w
  let w ← items.foldlM (fun w item => w.serialize (row item)) w
  return w.text

/-- The table of records. -/
def latencyTable (records : List SampleRecord) : Except Csv.Uneven String :=
  table latencyHeader latencyRow records

/-- The table of buckets. -/
def throughputTable (buckets : List ThroughputBucket) : Except Csv.Uneven String :=
  table throughputHeader throughputRow buckets

/-- Makes an empty file, with the directories above it. -/
def create (files : Files) (path : String) : Except ExportError Files := do
  let files ← (files.makeDirectories (Files.parent path)).mapError (.directory (Files.parent path))
  (files.write path "").mapError (.file path)

/-- Writes one table into a new file. -/
def writeTable (files : Files) (path : String) (table : Except Csv.Uneven String) :
    Except ExportError Files := do
  let files ← create files path
  let text ← table.mapError .record
  (files.write path text).mapError (.file path)

/-- Writes the table of records. -/
def writeLatency (files : Files) (path : String) (records : List SampleRecord) :
    Except ExportError Files :=
  writeTable files path (latencyTable records)

/-- Writes the table of buckets. -/
def writeThroughput (files : Files) (path : String) (buckets : List ThroughputBucket) :
    Except ExportError Files :=
  writeTable files path (throughputTable buckets)

/-- Writes both tables into a directory, the records first. -/
def writeTables (files : Files) (directory : String) (records : List SampleRecord)
    (buckets : List ThroughputBucket) : Except ExportError Files := do
  let files ← writeLatency files (Files.join directory latencyFile) records
  writeThroughput files (Files.join directory throughputFile) buckets

end Export

end LoadRig
