import LoadRig.Proofs.Statistics.Order
import Mathlib.Algebra.BigOperators.Group.List.Lemmas
import Mathlib.Algebra.Order.Ring.Nat
import Mathlib.Order.Bounds.Basic
/-!
# Every room and every kind, once

Kinds and rooms are counted in one pass over the records, each record under its key. What comes out
is a tally: one entry for each key that occurs, none twice, and in each the number of the records
with that key. A tally says nothing of order, so it is kept when the entries are sorted; and the
numbers in it add up to the number of all records.

## Main definitions

* `LoadRig.Tally` — a list of entries that counts records by a key.
* `LoadRig.RoomSpan.Covers` — a time span that goes from the earliest record to the latest.
* `LoadRig.RecordSet.Listed` — what is true of the lists of rooms and kinds.

## Main results

* `LoadRig.Tally.sum_eq` — the numbers in a tally add up.
* `LoadRig.tally_gather` — records that are gathered by key are tallied.
* `LoadRig.RoomSpan.covers_of_foldl` — the span that the records of a room come to.
* `LoadRig.RecordSet.listed` — the lists of every set of records.
-/

namespace LoadRig

variable {ε δ κ ρ α : Type} [DecidableEq κ]

/-! ### Tallies -/

/-- A list with one entry for each key that occurs, and in each the number of the records with that
key. -/
structure Tally (key : ρ → κ) (rs : List ρ) (name : ε → κ) (number : ε → Nat) (es : List ε) :
    Prop where
  nodup : (es.map name).Nodup
  mem_iff : ∀ k, k ∈ es.map name ↔ ∃ r ∈ rs, key r = k
  number_eq : ∀ e ∈ es, number e = rs.countP (key · = name e)

namespace Tally

variable {key : ρ → κ} {rs : List ρ} {name : ε → κ} {number : ε → Nat} {es es' : List ε}

theorem perm (h : Tally key rs name number es) (hes : es'.Perm es) :
    Tally key rs name number es' where
  nodup := (hes.map name).nodup_iff.mpr h.nodup
  mem_iff := fun k => (hes.map name).mem_iff.trans (h.mem_iff k)
  number_eq := fun e he => h.number_eq e (hes.mem_iff.mp he)

/-- Entries may be written anew as long as key and number stay. -/
theorem map {f : ε → δ} {name' : δ → κ} {number' : δ → Nat} (h : Tally key rs name number es)
    (hname : ∀ e, name' (f e) = name e) (hnumber : ∀ e, number' (f e) = number e) :
    Tally key rs name' number' (es.map f) := by
  have hkeys : (es.map f).map name' = es.map name := by
    rw [List.map_map]
    exact List.map_congr_left fun e _ => hname e
  refine ⟨hkeys ▸ h.nodup, fun k => hkeys ▸ h.mem_iff k, fun e' he' => ?_⟩
  obtain ⟨e, he, rfl⟩ := List.mem_map.mp he'
  rw [hnumber, hname]
  exact h.number_eq e he

/-- **The numbers in a tally add up** to the number of records. -/
theorem sum_eq (h : Tally key rs name number es) : (es.map number).sum = rs.length := by
  have hkeys : (es.map name).Perm (rs.map key).dedup := by
    refine (List.perm_ext_iff_of_nodup h.nodup (List.nodup_dedup _)).mpr fun k => ?_
    rw [h.mem_iff, List.mem_dedup, List.mem_map]
  have hcount : ∀ e ∈ es, number e = (rs.map key).count (name e) := by
    intro e he
    rw [h.number_eq e he, List.count, List.countP_map]
    rfl
  calc (es.map number).sum
      = ((es.map name).map fun k => (rs.map key).count k).sum := by
        rw [List.map_map]
        exact congrArg List.sum (List.map_congr_left hcount)
    _ = ((rs.map key).dedup.map fun k => (rs.map key).count k).sum := (hkeys.map _).sum_eq
    _ = rs.length := by rw [List.sum_map_count_dedup_eq_length, List.length_map]

end Tally

/-! ### Gathered records -/

section Gathered

variable {before : κ → κ → Bool} {key : ρ → κ} {f : ρ → Option α → α} {rs : List ρ}

/-- **Records that are gathered by key are tallied**, if what some of them make together tells how
many they are. -/
theorem tally_gather (hb : Keyed.Strict before) (number : α → Nat)
    (hnumber : ∀ (l : List ρ) (v : α),
      l.foldl (fun v r => some (f r v)) none = some v → number v = l.length) :
    Tally key rs Prod.fst (fun e => number e.2) (Keyed.gather before key f rs) where
  nodup := by
    refine List.pairwise_map.mpr ((Keyed.ordered_gather hb rs).imp ?_)
    exact fun h => hb.ne h
  mem_iff := by
    intro k
    constructor
    · intro hk
      obtain ⟨⟨k, v⟩, he, rfl⟩ := List.mem_map.mp hk
      have hv := (Keyed.mem_gather_iff hb).mp he
      obtain ⟨r, hr⟩ : ∃ r, r ∈ rs.filter fun r => key r = k := by
        refine List.exists_mem_of_ne_nil _ fun hnil => ?_
        rw [hnil] at hv
        cases hv
      exact ⟨r, by simpa using hr⟩
    · rintro ⟨r, hr, rfl⟩
      have hne : rs.filter (fun r' => key r' = key r) ≠ [] :=
        List.ne_nil_of_mem (List.mem_filter.mpr ⟨hr, by simp⟩)
      obtain ⟨v, hv⟩ := Keyed.exists_foldl f hne
      exact List.mem_map.mpr ⟨_, (Keyed.mem_gather_iff hb).mpr hv, rfl⟩
  number_eq := by
    rintro ⟨k, v⟩ he
    rw [hnumber _ v ((Keyed.mem_gather_iff hb).mp he), List.countP_eq_length_filter]

end Gathered

/-! ### Rooms -/

/-- The messages of some records, and a time span that goes from the earliest to the latest. -/
structure RoomSpan.Covers (s : RoomSpan) (rs : List SampleRecord) : Prop where
  messages : s.messages = rs.length
  first : IsLeast {t | ∃ r ∈ rs, r.sentAt = t} s.first
  last : IsGreatest {t | ∃ r ∈ rs, r.sentAt = t} s.last

namespace RoomSpan

variable {s : RoomSpan} {rs : List SampleRecord}

/-- The times of sending with one more record behind. -/
theorem times_concat (rs : List SampleRecord) (r : SampleRecord) :
    {t | ∃ x ∈ rs ++ [r], x.sentAt = t} = insert r.sentAt {t | ∃ x ∈ rs, x.sentAt = t} := by
  ext t
  constructor
  · rintro ⟨x, hx, rfl⟩
    rcases List.mem_append.mp hx with hx | hx
    · exact .inr ⟨x, hx, rfl⟩
    · exact .inl (by rw [List.mem_singleton.mp hx])
  · rintro (rfl | ⟨x, hx, rfl⟩)
    · exact ⟨r, List.mem_append_right _ (.head _), rfl⟩
    · exact ⟨x, List.mem_append_left _ hx, rfl⟩

theorem covers_extend_none (r : SampleRecord) : (extend r.sentAt none).Covers [r] := by
  have htimes : {t | ∃ x ∈ [r], x.sentAt = t} = {r.sentAt} := by
    ext t
    simp [eq_comm]
  exact ⟨rfl, htimes ▸ isLeast_singleton, htimes ▸ isGreatest_singleton⟩

/-- A span that is extended by a record covers it. -/
theorem Covers.extend (h : s.Covers rs) (r : SampleRecord) :
    (extend r.sentAt (some s)).Covers (rs ++ [r]) where
  messages := by rw [List.length_append, ← h.messages]; rfl
  first := by
    show IsLeast _ (min s.first r.sentAt)
    rw [times_concat, min_comm]
    exact h.first.insert r.sentAt
  last := by
    show IsGreatest _ (max s.last r.sentAt)
    rw [times_concat, max_comm]
    exact h.last.insert r.sentAt

/-- **The span that the records of a room come to** goes from the earliest to the latest of them. -/
theorem covers_of_foldl (h : rs.foldl (fun v r => some (RoomSpan.extend r.sentAt v)) none = some s) :
    s.Covers rs := by
  induction rs using List.reverseRecOn generalizing s with
  | nil => cases h
  | append_singleton rs r ih =>
    rw [List.foldl_append, List.foldl_cons, List.foldl_nil] at h
    rw [← Option.some.inj h]
    rcases eq_or_ne rs [] with rfl | hne
    · exact covers_extend_none r
    · obtain ⟨v, hv⟩ := Keyed.exists_foldl (fun r => RoomSpan.extend r.sentAt) hne
      rw [hv]
      exact (ih hv).extend r

end RoomSpan

/-! ### Kinds -/

/-- As many as there are records, one more for each. -/
theorem eq_length_of_foldl {rs : List SampleRecord} {n : Nat}
    (h : rs.foldl (fun v _ => some (v.getD 0 + 1)) none = some n) : n = rs.length := by
  induction rs using List.reverseRecOn generalizing n with
  | nil => cases h
  | append_singleton rs r ih =>
    rw [List.foldl_append, List.foldl_cons, List.foldl_nil] at h
    rw [← Option.some.inj h, List.length_append, List.length_singleton]
    rcases eq_or_ne rs [] with rfl | hne
    · rfl
    · obtain ⟨v, hv⟩ := Keyed.exists_foldl (fun _ v => v.getD 0 + 1) hne
      rw [hv, Option.getD_some, ih hv]

/-- Of two counts one is listed before the other, or both before each other. -/
theorem listedBefore_total (a b : MessageKind × Nat) :
    (listedBefore a b || listedBefore b a) = true := by
  simp only [listedBefore, Bool.or_eq_true, Bool.and_eq_true, decide_eq_true_eq, beq_iff_eq]
  omega

theorem listedBefore_trans (a b c : MessageKind × Nat) (hab : listedBefore a b = true)
    (hbc : listedBefore b c = true) : listedBefore a c = true := by
  simp only [listedBefore, Bool.or_eq_true, Bool.and_eq_true, decide_eq_true_eq, beq_iff_eq] at *
  omega

/-- Whether the share of one kind stands before that of another: the kind is more frequent, or as
frequent and the first of the two. -/
def KindShare.StandsBefore (a b : KindShare) : Prop :=
  b.count < a.count ∨ a.count = b.count ∧ a.kind.rank < b.kind.rank

/-! ### The lists of a report -/

namespace RecordSet

/-- What is true of the lists of rooms and kinds. -/
structure Listed (s : RecordSet) : Prop where
  rooms : Tally (·.room) s.records (·.room) (·.messages) s.roomThroughput
  ascending : (s.roomThroughput.map (·.room)).Pairwise (· < ·)
  /-- The span of a room goes from its earliest record to its latest, and is one at least. -/
  span : ∀ e ∈ s.roomThroughput, ∃ first last,
    IsLeast {t | ∃ r ∈ s.records, r.room = e.room ∧ r.sentAt = t} first ∧
      IsGreatest {t | ∃ r ∈ s.records, r.room = e.room ∧ r.sentAt = t} last ∧
      e.span = max (last - first) 1
  kinds : Tally (·.kind) s.records (·.kind) (·.count) s.kindShares
  frequent : s.kindShares.Pairwise KindShare.StandsBefore
  /-- The report has these lists. -/
  reported : s.statistics.rooms = s.roomThroughput ∧ s.statistics.kinds = s.kindShares
  /-- Whatever is counted, all records are. -/
  sums : (s.statistics.rooms.map (·.messages)).sum = s.size ∧
    (s.statistics.kinds.map (·.count)).sum = s.size ∧
    s.statistics.succeeded + s.statistics.failed = s.size ∧
    s.statistics.latency.count = s.size

variable (s : RecordSet)

theorem tally_rooms :
    Tally (·.room) s.records (·.room) (·.messages) s.roomThroughput := by
  refine Tally.map (tally_gather (f := fun r : SampleRecord => RoomSpan.extend r.sentAt) strict_rooms
    RoomSpan.messages fun l v hv => ?_) (fun _ => rfl) fun _ => rfl
  exact (RoomSpan.covers_of_foldl hv).messages

theorem tally_kinds : Tally (·.kind) s.records (·.kind) (·.count) s.kindShares := by
  have hcounts : Tally (·.kind) s.records Prod.fst (fun e => e.2) s.kindCounts :=
    tally_gather (f := fun _ n => n.getD 0 + 1) MessageKind.strict_rank id
      fun l v hv => eq_length_of_foldl hv
  exact (hcounts.perm (List.mergeSort_perm ..)).map (fun _ => rfl) fun _ => rfl

theorem ascending_rooms : (s.roomThroughput.map (·.room)).Pairwise (· < ·) := by
  rw [roomThroughput, List.map_map, List.pairwise_map]
  have hordered : Keyed.Ordered (fun a b => decide (a < b)) s.roomSpans :=
    Keyed.ordered_gather strict_rooms s.records
  exact hordered.imp of_decide_eq_true

theorem frequent_kinds : s.kindShares.Pairwise KindShare.StandsBefore := by
  have hsorted : s.kindShares.Pairwise
      fun a b => listedBefore (a.kind, a.count) (b.kind, b.count) = true := by
    rw [kindShares, List.pairwise_map]
    exact List.pairwise_mergeSort listedBefore_trans listedBefore_total _
  have hkinds : s.kindShares.Pairwise fun a b => a.kind ≠ b.kind :=
    List.pairwise_map.mp s.tally_kinds.nodup
  refine hsorted.imp₂ (fun a b hab hne => ?_) hkinds
  have hrank : a.kind.rank ≠ b.kind.rank := fun h => hne (MessageKind.rank_injective h)
  simp only [listedBefore, Bool.or_eq_true, Bool.and_eq_true, decide_eq_true_eq, beq_iff_eq] at hab
  rw [KindShare.StandsBefore]
  omega

theorem span_room {e : RoomThroughput} (he : e ∈ s.roomThroughput) :
    ∃ first last,
      IsLeast {t | ∃ r ∈ s.records, r.room = e.room ∧ r.sentAt = t} first ∧
        IsGreatest {t | ∃ r ∈ s.records, r.room = e.room ∧ r.sentAt = t} last ∧
        e.span = max (last - first) 1 := by
  obtain ⟨⟨room, v⟩, hv, rfl⟩ := List.mem_map.mp he
  have hcovers := RoomSpan.covers_of_foldl ((Keyed.mem_gather_iff strict_rooms).mp hv)
  refine ⟨v.first, v.last, ?_, ?_, rfl⟩
  · simpa [and_assoc] using hcovers.first
  · simpa [and_assoc] using hcovers.last

/-- What the report says, also if there are no records. -/
theorem statistics_eq : s.statistics.rooms = s.roomThroughput ∧ s.statistics.kinds = s.kindShares ∧
    s.statistics.succeeded = s.count .ok ∧ s.statistics.failed = s.count .fail ∧
    s.statistics.latency.count = s.latency.count := by
  obtain ⟨_ | ⟨r, rs⟩⟩ := s
  · simp [statistics, isEmpty, roomThroughput, roomSpans, kindShares, kindCounts, count, latency]
  · exact ⟨rfl, rfl, rfl, rfl, rfl⟩

theorem count_latency : s.latency.count = s.size := by
  show ((s.records.map (·.latency)).mergeSort (· ≤ ·)).length = s.size
  rw [List.length_mergeSort, List.length_map, size]

/-- **The lists of rooms and kinds** have every key once, in order, with what is true of its records;
and all records are counted. -/
theorem listed : s.Listed := by
  obtain ⟨hrooms, hkinds, hok, hfail, hlatency⟩ := s.statistics_eq
  refine ⟨s.tally_rooms, s.ascending_rooms, fun e => s.span_room, s.tally_kinds, s.frequent_kinds,
    ⟨hrooms, hkinds⟩, ?_, ?_, ?_, ?_⟩
  · rw [hrooms, s.tally_rooms.sum_eq, size]
  · rw [hkinds, s.tally_kinds.sum_eq, size]
  · rw [hok, hfail, size, length_eq_countP_outcome, count, count]
  · rw [hlatency, s.count_latency]

end RecordSet

end LoadRig
