import LoadRig.Export
import LoadRig.Report.ToJson
import LoadRig.Time.Calendar
/-!
# Keeping a run

A run is kept in a directory: the two tables, and a file in JSON with the whole report and its
statistics, over several lines. The file is named for the second in which it was written, so that
runs do not overwrite each other.

## Main definitions

* `LoadRig.RunFile` — what the file holds; `LoadRig.RunFile.json` and `LoadRig.RunFile.text`.
* `LoadRig.RunFile.name` — the name of the file.
* `LoadRig.RunFile.keep` — writes everything into a directory.
* `LoadRig.KeepError` — what can be in the way.
-/

namespace LoadRig

open LoadRig.Json LoadRig.Text LoadRig.Time

/-! ### Moments -/

namespace Time

/-- The digits behind the point of a second: none, three, six or nine, whichever suffice. -/
def fractionText (nanos : Nat) : List Char :=
  if nanos = 0 then []
  else if nanos % 1000000 = 0 then '.' :: padLeft 3 '0' (digits (nanos / 1000000))
  else if nanos % 1000 = 0 then '.' :: padLeft 6 '0' (digits (nanos / 1000))
  else '.' :: padLeft 9 '0' (digits nanos)

/-- A moment as a date and a time of day, with the offset of universal time in digits. -/
def Instant.offsetText (i : Instant) : List Char :=
  let date := Date.ofDays (i.seconds.fdiv daySeconds)
  let ofDay := (i.seconds.fmod daySeconds).toNat
  yearText date.year ++ '-' :: two date.month ++ '-' :: two date.day ++
    'T' :: two (ofDay / 3600) ++ ':' :: two (ofDay / 60 % 60) ++ ':' :: two (ofDay % 60) ++
    fractionText i.nanos ++ ['+', '0', '0', ':', '0', '0']

/-- A moment in digits, with a line between the date and the time of day. -/
def Instant.nameText (i : Instant) : List Char :=
  let date := Date.ofDays (i.seconds.fdiv daySeconds)
  let ofDay := (i.seconds.fmod daySeconds).toNat
  yearText date.year ++ two date.month ++ two date.day ++
    '_' :: two (ofDay / 3600) ++ two (ofDay / 60 % 60) ++ two (ofDay % 60)

end Time

/-! ### The file -/

/-- What is kept of a run. -/
structure RunFile where
  writtenAt : Instant
  /-- The sort of far side that messages went to. -/
  mode : String
  target : String
  totalMessages : Nat
  report : RunReport
  statistics : Statistics

namespace RunFile

/-- The content of the file. -/
def json (f : RunFile) : Value :=
  .record
    [("timestamp", .string f.writtenAt.offsetText), ("mode", .ofString f.mode),
      ("target", .ofString f.target), ("total_messages", .ofNat f.totalMessages),
      ("run", f.report.json), ("statistics", f.statistics.json)]

/-- The text of the file. -/
def text (f : RunFile) : String := String.ofList (f.json.pretty 0)

/-- The name of the file. -/
def name (f : RunFile) : String := "run_" ++ String.ofList f.writtenAt.nameText ++ ".json"

end RunFile

/-- Why a run cannot be kept. -/
inductive KeepError where
  | directory (path : String) (cause : FileError)
  | tables (cause : ExportError)
  | runFile (path : String) (cause : FileError)
deriving DecidableEq, Repr

/-- What was tried, and why it failed. -/
def KeepError.chain : KeepError → List String
  | directory path cause =>
    ["Failed to create results directory " ++ debugQuoted path, cause.message]
  | tables cause => cause.chain
  | runFile path cause => ["Failed to write " ++ debugQuoted path, cause.message]

/-- Writes the tables and the file of a run into a directory, which is made if it is not there. -/
def RunFile.keep (f : RunFile) (directory : String) (files : Files) : Except KeepError Files := do
  let files ← (files.makeDirectories directory).mapError (.directory directory)
  let files ←
    (Export.writeTables files directory f.report.records.records f.statistics.buckets).mapError
      .tables
  let path := Files.join directory f.name
  (files.write path f.text).mapError (.runFile path)

end LoadRig
