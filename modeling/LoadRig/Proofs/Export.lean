import LoadRig.Export
import LoadRig.Proofs.Csv
import LoadRig.Proofs.Decimal.Layout
import LoadRig.Proofs.Files
/-!
# Nothing is lost in an export

Both files that a run leaves are tables from which what was put into them is read again. The table of
records gives back the records as they were. The table of buckets gives back when each bucket began and
how many messages are in it; its durations and rates are doubles, of which only the characters matter
here.

No field of either table needs quotes. A number is written in digits with a few marks that are not
special, a double at most with the name of a special value, and the names of kinds and outcomes are
capital letters. All rows are of the width of the header, so no record is refused, and the header that
comes from the names of the fields is the one that an empty table gets.

## Main definitions

* `LoadRig.Text.readInt?` — reads an integer.
* `LoadRig.Export.readRecord?`, `LoadRig.Export.readBucket?` — read the fields of a row.

## Main results

* `LoadRig.Export.lawful_latency`, `LoadRig.Export.lawful_throughput` — the two kinds of rows.
* `LoadRig.Export.exists_table` — a table of lawful rows is made, and it holds its items.
* `LoadRig.Export.exists_writeTable` — a table is written wherever a file can be made.
* `LoadRig.Export.readBack` — what was exported is read from the files.
-/

namespace LoadRig

/-! ### Integers -/

namespace Text

/-- Reads an integer, with a minus sign before a negative one. -/
def readInt? : List Char → Option Int
  | '-' :: cs => (readDigits? cs).map fun n => -(n : Int)
  | cs => (readDigits? cs).map fun n => (n : Int)

/-- **An integer is read back.** -/
theorem readInt?_intDigits (n : Int) : readInt? (intDigits n) = some n := by
  cases n with
  | ofNat n =>
    obtain ⟨c, cs, hcs⟩ := List.exists_cons_of_ne_nil (digits_ne_nil n)
    have hsign : c ≠ '-' := by
      rintro rfl
      have hdigit : Char.isDigit '-' = true :=
        isDigit_of_mem_digits (n := n) (hcs ▸ List.mem_cons_self)
      exact absurd hdigit (by decide)
    have hread := readDigits?_digits n
    show readInt? (digits n) = _
    rw [hcs] at hread ⊢
    unfold readInt?
    split
    next heq => exact absurd (List.cons.inj heq).1 hsign
    next => rw [hread]; rfl
  | negSucc n =>
    show readInt? ('-' :: digits (n + 1)) = _
    rw [readInt?, readDigits?_digits]
    rfl

end Text

open LoadRig.Text LoadRig.Csv

theorem MessageKind.ofName?_name (k : MessageKind) : ofName? k.name = some k := by
  cases k <;> decide

theorem Outcome.ofName?_name (o : Outcome) : ofName? o.name = some o := by
  cases o <;> decide

namespace Export

/-! ### Plain fields -/

theorem isSpecial_of_isDigit (c : Char) (h : c.isDigit = true) : isSpecial c = false := by
  have hne : ∀ d : Char, d.isDigit = false → (c == d) = false := by
    intro d hd
    rw [beq_eq_false_iff_ne]
    rintro rfl
    rw [h] at hd
    cases hd
  simp only [isSpecial, hne ',' (by decide), hne '"' (by decide), hne '\r' (by decide),
    hne '\n' (by decide), Bool.or_false]

theorem plain_digits (n : Nat) : Plain (digits n) :=
  fun c hc => isSpecial_of_isDigit c (isDigit_of_mem_digits hc)

theorem plain_intDigits (n : Int) : Plain (intDigits n) :=
  forall_mem_intDigits isSpecial_of_isDigit (by decide) n

theorem plain_numberLayout (x : Float) : Plain (numberLayout.text x) :=
  Decimal.Layout.forall_mem_text isSpecial_of_isDigit (by decide) (by decide) (by decide)
    (plain_iff_any.mpr (by decide)) (plain_iff_any.mpr (by decide)) (plain_iff_any.mpr (by decide)) x

theorem plain_kind (k : MessageKind) : Plain k.name.toList := by
  rw [plain_iff_any]
  cases k <;> decide

theorem plain_outcome (o : Outcome) : Plain o.name.toList := by
  rw [plain_iff_any]
  cases o <;> decide

/-! ### Rows -/

/-- Reads the five fields of a record. -/
def readRecord? : List (List Char) → Option SampleRecord
  | [sentAt, kind, latency, outcome, room] => do
    return { sentAt := ← readInt? sentAt
             kind := ← MessageKind.ofName? (String.ofList kind)
             latency := ← readDigits? latency
             outcome := ← Outcome.ofName? (String.ofList outcome)
             room := ← readDigits? room }
  | _ => none

/-- Reads when a bucket began and how many messages are in it from the first two of its four fields. -/
def readBucket? : List (List Char) → Option (Nat × Nat)
  | [start, messages, _, _] => do return (← readDigits? start, ← readDigits? messages)
  | _ => none

/-- **Records are rows under the header of their table**, and are read from their fields. -/
theorem lawful_latency : Lawful latencyHeader latencyRow readRecord? id where
  names r := by
    show [camelCase "send_timestamp", camelCase "message_type", camelCase "latency_ms",
      camelCase "status_code", camelCase "room_id"] = latencyHeader
    decide
  wide := by decide
  plain_header := forall_plain_iff_any.mpr (by decide)
  plain r := by
    intro f hf
    simp only [latencyRow, List.map_cons, List.map_nil, List.mem_cons, List.not_mem_nil,
      or_false] at hf
    rcases hf with rfl | rfl | rfl | rfl | rfl
    · exact plain_intDigits _
    · exact plain_kind _
    · exact plain_digits _
    · exact plain_outcome _
    · exact plain_digits _
  read r := by
    show readRecord? [intDigits r.sentAt, r.kind.name.toList, digits r.latency,
      r.outcome.name.toList, digits r.room] = some r
    simp only [readRecord?, String.ofList_toList, readInt?_intDigits, readDigits?_digits,
      MessageKind.ofName?_name, Outcome.ofName?_name]
    rfl
  read_header := by decide

/-- **Buckets are rows under the header of their table.** -/
theorem lawful_throughput :
    Lawful throughputHeader throughputRow readBucket? fun b => (b.start, b.messages) where
  names b := by
    show [camelCase "bucket_start_sec", camelCase "messages", camelCase "duration_sec",
      camelCase "messages_per_sec"] = throughputHeader
    decide
  wide := by decide
  plain_header := forall_plain_iff_any.mpr (by decide)
  plain b := by
    intro f hf
    simp only [throughputRow, List.map_cons, List.map_nil, List.mem_cons, List.not_mem_nil,
      or_false] at hf
    rcases hf with rfl | rfl | rfl | rfl
    · exact plain_digits _
    · exact plain_digits _
    · exact plain_numberLayout _
    · exact plain_numberLayout _
  read b := by
    show readBucket? [digits b.start, digits b.messages, numberLayout.text b.duration,
      numberLayout.text b.rate] = _
    simp only [readBucket?, readDigits?_digits]
    rfl
  read_header := by decide

/-! ### Tables -/

variable {α β : Type} {header : List (List Char)} {row : α → Row}
  {read? : List (List Char) → Option β} {item : α → β}

/-- A table is its header and its rows, whether it has any or not. -/
theorem table_eq (h : Lawful header row read? item) (items : List α) :
    table header row items =
      .ok (String.ofList (record header ++ items.flatMap fun a => record ((row a).map (·.2)))) := by
  cases items with
  | nil =>
    simp [table, Writer.write, bind, Except.bind, pure, Except.pure]
  | cons a items =>
    have hfirst := Writer.serialize_first (row a)
    rw [h.names a, h.length_row a] at hfirst
    have hrest := Writer.foldlM_serialize h.length_row items
      (record header ++ record ((row a).map (·.2)))
    show (((({} : Writer).serialize (row a)) >>= fun w =>
      items.foldlM (fun w a => w.serialize (row a)) w) >>= fun w => pure w.text) = _
    rw [hfirst, List.flatMap_cons, ← List.append_assoc]
    show ((items.foldlM (fun w a => w.serialize (row a)) (Writer.midway _ _)) >>= fun w => pure w.text) = _
    rw [hrest]
    rfl

/-- **A table of lawful rows is made, and it holds its items.** -/
theorem exists_table (h : Lawful header row read? item) (items : List α) :
    ∃ text, table header row items = .ok text ∧
      Holds (line header) read? (items.map item) text.toList := by
  refine ⟨_, table_eq h items, ?_⟩
  rw [String.toList_ofList]
  exact h.holds items

/-! ### Files -/

variable {files made : Files} {path text : String}

theorem bind_eq_ok_iff {ε γ δ : Type} {x : Except ε γ} {f : γ → Except ε δ} {d : δ} :
    (x >>= f) = .ok d ↔ ∃ c, x = .ok c ∧ f c = .ok d := by
  cases x <;> simp [bind, Except.bind]

theorem mapError_eq_ok_iff {ε ε' γ : Type} {x : Except ε γ} {f : ε → ε'} {c : γ} :
    x.mapError f = .ok c ↔ x = .ok c := by
  cases x <;> simp [Except.mapError]

/-- A file that was made has been written to. -/
theorem exists_write_of_create (h : create files path = .ok made) :
    ∃ before : Files, before.write path "" = .ok made := by
  obtain ⟨before, -, hwrite⟩ := bind_eq_ok_iff.mp h
  exact ⟨before, mapError_eq_ok_iff.mp hwrite⟩

/-- **A table is written wherever a file can be made**, and is what is read from the file. -/
theorem exists_writeTable (hmade : (create files path).isOk = true) (text : String) :
    ∃ files', writeTable files path (.ok text) = .ok files' ∧ files'.read path = .ok text := by
  rcases hcreate : create files path with e | made
  · rw [hcreate] at hmade
    cases hmade
  · obtain ⟨before, hbefore⟩ := exists_write_of_create hcreate
    obtain ⟨files', hwrite⟩ := Files.exists_write_of_write hbefore text
    refine ⟨files', ?_, Files.read_of_write hwrite⟩
    exact bind_eq_ok_iff.mpr ⟨made, hcreate, mapError_eq_ok_iff.mpr hwrite⟩

/-- **What was exported is read from the files.** Wherever a file can be made, the table of any records
and the table of any buckets is written. What the file holds then is a table with the same header in
every case. From its other lines the records are read, or the beginnings of the buckets with their
numbers of messages. -/
theorem readBack (hmade : (create files path).isOk = true) :
    (∀ records, ∃ files' text,
      writeLatency files path records = .ok files' ∧ files'.read path = .ok text ∧
        Holds "sendTimestamp,messageType,latencyMs,statusCode,roomId".toList readRecord? records
          text.toList) ∧
    ∀ buckets, ∃ files' text,
      writeThroughput files path buckets = .ok files' ∧ files'.read path = .ok text ∧
        Holds "bucketStartSec,messages,durationSec,messagesPerSec".toList readBucket?
          (buckets.map fun b => (b.start, b.messages)) text.toList := by
  constructor
  · intro records
    obtain ⟨text, htable, hholds⟩ := exists_table lawful_latency records
    obtain ⟨files', hwrite, hread⟩ := exists_writeTable hmade text
    refine ⟨files', text, ?_, hread, ?_⟩
    · rw [writeLatency, latencyTable, htable]
      exact hwrite
    · rw [List.map_id] at hholds
      have hline : line latencyHeader =
          "sendTimestamp,messageType,latencyMs,statusCode,roomId".toList := by decide
      exact hline ▸ hholds
  · intro buckets
    obtain ⟨text, htable, hholds⟩ := exists_table lawful_throughput buckets
    obtain ⟨files', hwrite, hread⟩ := exists_writeTable hmade text
    refine ⟨files', text, ?_, hread, ?_⟩
    · rw [writeThroughput, throughputTable, htable]
      exact hwrite
    · have hline : line throughputHeader =
          "bucketStartSec,messages,durationSec,messagesPerSec".toList := by decide
      exact hline ▸ hholds

/-- In an empty tree, with a record made before the epoch and the greatest numbers there are. -/
theorem readBack_extreme :
    let path := "results/latency_data.csv"
    let records : List SampleRecord :=
      [{ sentAt := -9223372036854775808, kind := .leave, latency := 18446744073709551615,
         outcome := .fail, room := 4294967295 },
       { sentAt := 9223372036854775807, kind := .text, latency := 0, outcome := .ok, room := 0 }]
    (create {} path).isOk = true ∧
      ∃ files' text, writeLatency {} path records = .ok files' ∧ files'.read path = .ok text ∧
        Holds "sendTimestamp,messageType,latencyMs,statusCode,roomId".toList readRecord? records
          text.toList := by
  intro path records
  have hmade : (create {} path).isOk = true := by decide +kernel
  exact ⟨hmade, (readBack hmade).1 records⟩

end Export

end LoadRig
