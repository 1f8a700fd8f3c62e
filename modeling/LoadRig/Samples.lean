import LoadRig.Message.Kind
/-!
# Records of sent messages

Every message that a sender takes ends in one record, whether it was acknowledged or given up.
While a phase runs its senders append to one pool; afterwards the records are a closed set, which
statistics and exports only read.

The pool keeps its newest record in front, so that appending takes no time. `SamplePool.records`
is the list in the order of recording, and everything else is said of that list.

## Main definitions

* `LoadRig.Outcome`, `LoadRig.SampleRecord` — one record.
* `LoadRig.RecordSet` — a closed list of records.
* `LoadRig.SamplePool` — the pool; `LoadRig.SamplePool.record`, `LoadRig.SamplePool.snapshot`.

## Main results

* `LoadRig.SamplePool.records_record` — recording appends at the end.
-/

namespace LoadRig

/-- How a message ended. -/
inductive Outcome where
  | ok
  | fail
deriving DecidableEq, Repr, Inhabited

/-- The outcome in capitals. -/
def Outcome.name : Outcome → String
  | .ok => "OK"
  | .fail => "FAIL"

/-- The outcome with a given name. -/
def Outcome.ofName? (s : String) : Option Outcome := [Outcome.ok, .fail].find? (·.name == s)

/-- How one message ended: when it was first sent by the world clock, how long it took with every
repetition and pause, and in which room. -/
structure SampleRecord where
  sentAt : Int
  kind : MessageKind
  latency : Nat
  outcome : Outcome
  room : Nat
deriving DecidableEq, Repr, Inhabited

/-- Every record is of one outcome or the other. -/
theorem length_eq_countP_outcome (records : List SampleRecord) :
    records.length = records.countP (·.outcome == .ok) + records.countP (·.outcome == .fail) := by
  induction records with
  | nil => rfl
  | cons r records ih =>
    simp only [List.length_cons, List.countP_cons, ih]
    cases r.outcome <;> simp <;> omega

/-! ### Closed sets -/

/-- Records in the order of recording. -/
structure RecordSet where
  records : List SampleRecord
deriving DecidableEq, Repr, Inhabited

namespace RecordSet

/-- The number of records. -/
def size (s : RecordSet) : Nat := s.records.length

/-- Whether there are no records. -/
def isEmpty (s : RecordSet) : Bool := s.records.isEmpty

/-- The number of records with an outcome. -/
def count (s : RecordSet) (o : Outcome) : Nat := s.records.countP (·.outcome == o)

/-- The earliest and the latest time of sending. -/
def span? (s : RecordSet) : Option (Int × Int) :=
  match s.records.map (·.sentAt) with
  | [] => none
  | t :: ts => some (ts.foldl min t, ts.foldl max t)

/-- One set after the other. -/
def concat (sets : List RecordSet) : RecordSet := ⟨sets.flatMap (·.records)⟩

/-- The record in a place. -/
def get? (s : RecordSet) (i : Nat) : Option SampleRecord := s.records[i]?

end RecordSet

/-! ### The pool -/

/-- The records of a running phase. -/
structure SamplePool where
  newestFirst : List SampleRecord := []
deriving DecidableEq, Repr, Inhabited

namespace SamplePool

/-- A pool without records. -/
def empty : SamplePool := {}

/-- The records in the order of recording. -/
def records (p : SamplePool) : List SampleRecord := p.newestFirst.reverse

/-- Appends a record. -/
def record (p : SamplePool) (r : SampleRecord) : SamplePool := ⟨r :: p.newestFirst⟩

/-- The number of records. -/
def size (p : SamplePool) : Nat := p.newestFirst.length

/-- Everything recorded so far. -/
def snapshot (p : SamplePool) : RecordSet := ⟨p.records⟩

@[simp] theorem records_empty : empty.records = [] := rfl

@[simp] theorem records_record (p : SamplePool) (r : SampleRecord) :
    (p.record r).records = p.records ++ [r] := by
  simp [records, record]

@[simp] theorem size_record (p : SamplePool) (r : SampleRecord) :
    (p.record r).size = p.size + 1 := rfl

theorem length_records (p : SamplePool) : p.records.length = p.size := by
  simp [records, size]

end SamplePool

end LoadRig
