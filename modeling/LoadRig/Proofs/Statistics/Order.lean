import LoadRig.Proofs.Keyed
import LoadRig.Statistics
/-!
# Statistics do not depend on the order of the records

While a phase runs, its senders append their records to one pool in the order in which they happen to
finish. Nothing of that order is left in the statistics. The latencies are sorted before anything is
made of them, so even the sum of doubles behind the mean has its terms in one order; the kinds and the
rooms are gathered under their keys; the earliest and the latest time of sending do not ask for a
place; and a bucket only counts.

## Main results

* `LoadRig.RecordSet.latency_eq_of_perm`, `LoadRig.RecordSet.kindShares_eq_of_perm`,
  `LoadRig.RecordSet.roomThroughput_eq_of_perm`, `LoadRig.RecordSet.buckets_eq_of_perm`
* `LoadRig.RecordSet.statistics_eq_of_perm` — the whole report.
-/

namespace LoadRig

/-! ### Keys -/

theorem MessageKind.rank_injective {a b : MessageKind} (h : a.rank = b.rank) : a = b := by
  cases a <;> cases b <;> first | rfl | cases h

/-- Kinds are gathered in the order in which they are listed. -/
theorem MessageKind.strict_rank :
    Keyed.Strict fun a b : MessageKind => decide (a.rank < b.rank) where
  irrefl := fun a => by simp
  trans := fun a b c => by simpa using Nat.lt_trans
  connected := fun a b hne => by
    have hrank : a.rank ≠ b.rank := fun h => hne (rank_injective h)
    simpa using Nat.lt_or_gt_of_ne hrank

/-- Rooms are gathered in ascending order. -/
theorem strict_rooms : Keyed.Strict fun a b : Nat => decide (a < b) where
  irrefl := fun a => by simp
  trans := fun a b c => by simpa using Nat.lt_trans
  connected := fun a b hne => by simpa using Nat.lt_or_gt_of_ne hne

theorem RoomSpan.extend_comm (v : Option RoomSpan) (t u : Int) :
    extend u (some (extend t v)) = extend t (some (extend u v)) := by
  have hmin := Int.min_comm t u
  have hmax := Int.max_comm t u
  cases v with
  | none => simp [extend, hmin, hmax]
  | some s => simp [extend, Int.min_assoc, Int.max_assoc, hmin, hmax]

namespace RecordSet

variable {s s' : RecordSet}

/-! ### Single parts -/

theorem size_eq_of_perm (h : s.records.Perm s'.records) : s.size = s'.size := h.length_eq

theorem count_eq_of_perm (h : s.records.Perm s'.records) (o : Outcome) : s.count o = s'.count o :=
  h.countP_eq _

theorem latency_eq_of_perm (h : s.records.Perm s'.records) : s.latency = s'.latency := by
  have hsorted (l : List Nat) : (l.mergeSort (· ≤ ·)).Pairwise (· ≤ ·) := by
    have hpairwise : (l.mergeSort (· ≤ ·)).Pairwise fun a b => decide (a ≤ b) = true :=
      List.pairwise_mergeSort (by simpa using fun _ _ _ => Nat.le_trans)
        (by simpa using Nat.le_total) l
    simpa using hpairwise
  have hsame : (s.records.map (·.latency)).mergeSort (· ≤ ·)
      = (s'.records.map (·.latency)).mergeSort (· ≤ ·) := by
    refine List.Perm.eq_of_pairwise (fun _ _ _ _ => Nat.le_antisymm) (hsorted _) (hsorted _) ?_
    exact (List.mergeSort_perm ..).trans ((h.map _).trans (List.mergeSort_perm ..).symm)
  rw [latency, latency, hsame]

theorem kindCounts_eq_gather (s : RecordSet) : s.kindCounts
    = Keyed.gather (fun a b => a.rank < b.rank) (·.kind) (fun _ n => n.getD 0 + 1) s.records := rfl

theorem roomSpans_eq_gather (s : RecordSet) : s.roomSpans
    = Keyed.gather (fun a b => a < b) (·.room) (fun r => RoomSpan.extend r.sentAt) s.records := rfl

theorem kindShares_eq_of_perm (h : s.records.Perm s'.records) : s.kindShares = s'.kindShares := by
  have hcounts : s.kindCounts = s'.kindCounts := by
    rw [kindCounts_eq_gather, kindCounts_eq_gather]
    exact Keyed.gather_eq_of_perm MessageKind.strict_rank (fun _ _ _ => rfl) h
  rw [kindShares, kindShares, hcounts, size_eq_of_perm h]

theorem roomThroughput_eq_of_perm (h : s.records.Perm s'.records) :
    s.roomThroughput = s'.roomThroughput := by
  have hspans : s.roomSpans = s'.roomSpans := by
    rw [roomSpans_eq_gather, roomSpans_eq_gather]
    exact Keyed.gather_eq_of_perm strict_rooms
      (fun v r r' => RoomSpan.extend_comm v r.sentAt r'.sentAt) h
  rw [roomThroughput, roomThroughput, hspans]

/-- The time span is made of the least and the greatest time, wherever they stand. -/
theorem span?_eq (s : RecordSet) :
    s.span? = (s.records.map (·.sentAt)).min?.bind fun first =>
      (s.records.map (·.sentAt)).max?.map fun last => (first, last) := by
  rw [span?]
  cases s.records.map (·.sentAt) <;> rfl

theorem span?_eq_of_perm (h : s.records.Perm s'.records) : s.span? = s'.span? := by
  have htimes := h.map (·.sentAt)
  have hmin : (s.records.map (·.sentAt)).min? = (s'.records.map (·.sentAt)).min? :=
    Option.ext fun t => by simp only [List.min?_eq_some_iff, htimes.mem_iff]
  have hmax : (s.records.map (·.sentAt)).max? = (s'.records.map (·.sentAt)).max? :=
    Option.ext fun t => by simp only [List.max?_eq_some_iff, htimes.mem_iff]
  rw [span?_eq, span?_eq, hmin, hmax]

/-- It does not matter which of two places is counted first. -/
theorem modify_comm (counts : Array Nat) (i j : Nat) :
    (counts.modify i (· + 1)).modify j (· + 1) = (counts.modify j (· + 1)).modify i (· + 1) := by
  refine Array.ext (by simp) fun k hk hk' => ?_
  simp only [Array.getElem_modify]
  split <;> split <;> rfl

theorem buckets_eq_of_perm (h : s.records.Perm s'.records) : s.buckets = s'.buckets := by
  have hcounts : ∀ first n, s.bucketCounts first n = s'.bucketCounts first n := fun first n =>
    h.foldl_eq' (fun _ _ _ _ counts => modify_comm counts _ _) _
  simp only [buckets, span?_eq_of_perm h, hcounts]

/-! ### The report -/

/-- **The statistics do not depend on the order of the records**: every field of the report is the
same, numbers and lists alike. -/
theorem statistics_eq_of_perm (h : s.records.Perm s'.records) : s.statistics = s'.statistics := by
  have hempty : s.isEmpty = s'.isEmpty := h.isEmpty_eq
  simp only [statistics, hempty, size_eq_of_perm h, count_eq_of_perm h, latency_eq_of_perm h,
    kindShares_eq_of_perm h, roomThroughput_eq_of_perm h, buckets_eq_of_perm h]

/-- A message to the first room and a later one, of another kind, to the second. -/
def apart : List SampleRecord :=
  [{ sentAt := 0, kind := .text, latency := 7, outcome := .ok, room := 1 },
    { sentAt := 12000, kind := .join, latency := 5, outcome := .fail, room := 2 }]

/-- The two messages in the other order. -/
theorem statistics_eq_of_swap : apart.Perm apart.reverse ∧
    RecordSet.statistics ⟨apart⟩ = RecordSet.statistics ⟨apart.reverse⟩ :=
  ⟨.swap .., statistics_eq_of_perm (.swap _ _ [])⟩

end RecordSet

end LoadRig
