import LoadRig.Proofs.Statistics.Order
import LoadRig.Proofs.Statistics.Quotient
import Mathlib.Algebra.BigOperators.Group.Finset.Basic
import Mathlib.Order.Bounds.Basic
/-!
# Every record in its bucket

The rate over time is taken in buckets of ten seconds. How many these are, into which of them a
record falls and how long the last one is, is found by separate divisions, and all of them agree:
the buckets divide the time from the first message to the last, each record is counted in the one
bucket that has its time, and no place has to be held back to the last bucket. Times are differences
from the first message, so it does not matter where the clock starts.

A rate is a quotient of doubles, and that no bucket has length zero is said of the double. The
length is a count of milliseconds by a thousand; the shortest is a tenth of a second, which is
exactly what a hundred milliseconds come to.

## Main definitions

* `LoadRig.bucketPlace` — the bucket of a time.
* `LoadRig.RecordSet.Fills` — what one bucket says, by the records with a time in it.
* `LoadRig.RecordSet.Bucketed` — what is true of all buckets together.

## Main results

* `LoadRig.bucketSeconds_eq` — the shortest time is a number of milliseconds like others.
* `LoadRig.RecordSet.toList_bucketCounts` — the counts, place by place.
* `LoadRig.RecordSet.bucketed_of_records` — the buckets of every set of records that is not empty.
-/

namespace LoadRig

/-! ### Seconds -/

theorem isNormal_thousand : IsNormal 1000.0 (-43) := ⟨1000 <<< 43, by decide, by decide, rfl⟩

theorem isNormal_shortestBucket : IsNormal shortestBucket (-56) :=
  ⟨0x1999999999999A, by decide, by decide, rfl⟩

/-- Milliseconds as seconds are a positive double, the larger the more bits they have. -/
theorem isNormal_seconds {d : Nat} (hd : 0 < d) (hlimit : d < wideLimit) :
    ∃ e, IsNormal (countFloat d / 1000.0) e ∧ (d.log2 : Int) - 62 ≤ e := by
  have hlog : d.log2 < 64 :=
    (Nat.log2_lt (Nat.ne_of_gt hd)).mpr (Nat.lt_of_lt_of_eq hlimit wideLimit_eq_pow)
  obtain ⟨a, ha, hlow, hhigh⟩ := isNormal_countFloat hd hlimit
  obtain ⟨e, he, hleast, -⟩ := ha.div isNormal_thousand (by omega) (by omega)
  exact ⟨e, he, by omega⟩

set_option maxRecDepth 4000 in
/-- Where the exponents do not decide, the quotients are computed. -/
theorem bucketSeconds_of_lt : ∀ d < 128, bucketSeconds d = countFloat (max d 100) / 1000.0 := by
  decide +kernel

/-- **The shortest time** is a hundred milliseconds; what is longer is kept. -/
theorem bucketSeconds_eq {d : Nat} (h : d < wideLimit) :
    bucketSeconds d = countFloat (max d 100) / 1000.0 := by
  rcases Nat.lt_or_ge d 128 with hd | hd
  · exact bucketSeconds_of_lt d hd
  · have hlog : 7 ≤ d.log2 := (Nat.le_log2 (by omega)).mpr hd
    obtain ⟨e, he, hleast⟩ := isNormal_seconds (Nat.lt_of_lt_of_le (by decide) hd) h
    have hlong : ¬ countFloat d / 1000.0 < shortestBucket :=
      he.not_lt isNormal_shortestBucket (by omega)
    rw [bucketSeconds, if_neg hlong, Nat.max_eq_left (by omega)]

/-- A single instant counts for a tenth of a second, and a whole bucket for ten. -/
example : bucketSeconds 0 = 0.1 ∧ bucketSeconds bucketMillis = 10.0 := by decide +kernel

theorem bucketSeconds_pos {d : Nat} (h : d < wideLimit) : 0.0 < bucketSeconds d := by
  obtain ⟨e, he, -⟩ := isNormal_seconds (Nat.lt_of_lt_of_le (by decide) (Nat.le_max_right d 100))
    (Nat.max_lt.mpr ⟨h, by decide⟩)
  rw [bucketSeconds_eq h]
  exact he.pos

/-! ### Counts -/

section Counted

variable {ρ : Type} (place : ρ → Nat)

/-- Counting records by their places adds to each place the number of records that have it. -/
theorem getElem?_foldl_modify (rs : List ρ) (counts : Array Nat) (i : Nat) :
    (rs.foldl (fun counts r => counts.modify (place r) (· + 1)) counts)[i]?
      = counts[i]?.map (· + rs.countP (place · == i)) := by
  induction rs generalizing counts with
  | nil => simp
  | cons r rs ih =>
    rw [List.foldl_cons, ih, Array.getElem?_modify, List.countP_cons]
    by_cases h : place r = i
    · rw [if_pos h, Option.map_map, if_pos (beq_iff_eq.mpr h)]
      exact congrArg (Option.map · _) (funext fun n => by show n + 1 + _ = _; omega)
    · rw [if_neg h, if_neg (mt beq_iff_eq.mp h), Nat.add_zero]

/-- If every record has one of the first `n` places, these have all records. -/
theorem sum_countP_range {rs : List ρ} {n : Nat} (h : ∀ r ∈ rs, place r < n) :
    ((List.range n).map fun i => rs.countP (place · == i)).sum = rs.length := by
  have hplaces : ∀ i ∈ (rs.map place : Multiset Nat), i ∈ Finset.range n := by
    simpa using h
  calc ((List.range n).map fun i => rs.countP (place · == i)).sum
      = ∑ i ∈ Finset.range n, (rs.map place : Multiset Nat).count i := by
        simp only [Multiset.coe_count, List.count, List.countP_map]
        rfl
    _ = rs.length := by rw [Multiset.sum_count_eq_card hplaces, Multiset.coe_card, List.length_map]

end Counted

/-! ### Places -/

/-- The bucket of a time, counted from zero. -/
def bucketPlace (first t : Int) : Nat := (t - first).toNat / bucketMillis

theorem bucketPlace_mono {first t u : Int} (h : t ≤ u) :
    bucketPlace first t ≤ bucketPlace first u :=
  Nat.div_le_div_right (by omega)

/-- A time has the place of the stretch of ten seconds that it lies in. -/
theorem bucketPlace_eq_iff {first t : Int} (h : first ≤ t) (i : Nat) :
    bucketPlace first t = i ↔ first + 10000 * i ≤ t ∧ t < first + 10000 * (i + 1) := by
  rw [bucketPlace, bucketMillis]
  omega

/-- The last bucket has what is left of the span. -/
theorem bucketLength_eq (span i : Nat) : bucketLength span (span / bucketMillis + 1) i =
    if i + 1 = span / bucketMillis + 1 then span % bucketMillis else bucketMillis := by
  rw [bucketLength]
  split
  next h => rw [Nat.succ.inj h, Nat.mod_eq_sub_div_mul]
  next => rfl

theorem bucketLength_lt (span i : Nat) :
    bucketLength span (span / bucketMillis + 1) i < wideLimit := by
  have hle : bucketLength span (span / bucketMillis + 1) i ≤ bucketMillis := by
    rw [bucketLength_eq]
    split
    next => exact Nat.le_of_lt (Nat.mod_lt _ (by decide))
    next => exact Nat.le_refl _
  exact Nat.lt_of_le_of_lt hle (by decide)

/-- How long a bucket lasts, in milliseconds that are made into seconds. -/
theorem bucketSeconds_bucketLength (span i : Nat) :
    bucketSeconds (bucketLength span (span / bucketMillis + 1) i) = countFloat
      (if i + 1 = span / bucketMillis + 1 then max (span % bucketMillis) 100 else bucketMillis)
        / 1000.0 := by
  rw [bucketSeconds_eq (bucketLength_lt span i), bucketLength_eq]
  split <;> rfl

namespace RecordSet

variable {s : RecordSet} {first last : Int}

/-- The earliest and the latest time of sending. -/
theorem exists_span (h : s.records ≠ []) :
    ∃ first last, s.span? = some (first, last) ∧
      IsLeast {t | ∃ r ∈ s.records, r.sentAt = t} first ∧
      IsGreatest {t | ∃ r ∈ s.records, r.sentAt = t} last := by
  have hne : s.records.map (·.sentAt) ≠ [] := mt List.map_eq_nil_iff.mp h
  obtain ⟨first, hfirst⟩ := Option.ne_none_iff_exists'.mp (mt List.min?_eq_none_iff.mp hne)
  obtain ⟨last, hlast⟩ := Option.ne_none_iff_exists'.mp (mt List.max?_eq_none_iff.mp hne)
  refine ⟨first, last, by rw [span?_eq, hfirst, hlast]; rfl, ?_, ?_⟩
  · obtain ⟨hmem, hle⟩ := List.min?_eq_some_iff.mp hfirst
    exact ⟨List.mem_map.mp hmem, fun t ht => hle t (List.mem_map.mpr ht)⟩
  · obtain ⟨hmem, hle⟩ := List.max?_eq_some_iff.mp hlast
    exact ⟨List.mem_map.mp hmem, fun t ht => hle t (List.mem_map.mpr ht)⟩

/-- The counts, if no place has to be held back. -/
theorem toList_bucketCounts {n : Nat} (h : ∀ r ∈ s.records, bucketPlace first r.sentAt < n) :
    (s.bucketCounts first n).toList
      = (List.range n).map fun i => s.records.countP (bucketPlace first ·.sentAt == i) := by
  refine List.ext_getElem? fun i => ?_
  rw [Array.getElem?_toList, bucketCounts,
    getElem?_foldl_modify fun r : SampleRecord =>
      min ((r.sentAt - first).toNat / bucketMillis) (n - 1),
    Array.getElem?_replicate, List.getElem?_map]
  rcases Nat.lt_or_ge i n with hi | hi
  · rw [if_pos hi, List.getElem?_range hi, Option.map_some, Option.map_some, Nat.zero_add]
    refine congrArg some (List.countP_congr fun r hr => ?_)
    have hplace := h r hr
    rw [← bucketPlace, Nat.min_eq_left (by omega)]
  · rw [if_neg (Nat.not_lt.mpr hi), List.getElem?_eq_none (by simpa using hi)]
    rfl

/-! ### Buckets -/

/-- What bucket `i` says of the records of a set, the first of which was sent at `first` and the
last at `last`. -/
structure Fills (s : RecordSet) (first last : Int) (i : Nat) (b : ThroughputBucket) : Prop where
  start : b.start = 10 * i
  messages : b.messages = s.records.countP fun r =>
    first + 10000 * i ≤ r.sentAt ∧ r.sentAt < first + 10000 * (i + 1)
  /-- Ten seconds, but for the last one, which ends with the last message. -/
  duration : b.duration = countFloat
    (if i + 1 = s.buckets.length then max ((last - first) % 10000).toNat 100 else 10000) / 1000.0
  positive : 0.0 < b.duration
  rate : b.rate = countFloat b.messages / b.duration

/-- What is true of the buckets of a set of records, the first of which was sent at `first` and the
last at `last`. -/
structure Bucketed (s : RecordSet) (first last : Int) : Prop where
  length : (s.buckets.length : Int) = (last - first) / 10000 + 1
  fills : ∀ i b, s.buckets[i]? = some b → s.Fills first last i b
  /-- No place has to be held back to the last bucket. -/
  unclamped : ∀ r ∈ s.records, min (bucketPlace first r.sentAt) (s.buckets.length - 1)
    = bucketPlace first r.sentAt
  partition : ∀ r ∈ s.records, ∃! i : Nat, i < s.buckets.length ∧
    first + 10000 * i ≤ r.sentAt ∧ r.sentAt < first + 10000 * (i + 1)
  sum : (s.buckets.map (·.messages)).sum = s.size
  ends : ∀ i b, s.buckets[i]? = some b → i = 0 ∨ i + 1 = s.buckets.length → 0 < b.messages

section Spanned

variable (hspan : s.span? = some (first, last))
  (hfirst : IsLeast {t | ∃ r ∈ s.records, r.sentAt = t} first)
  (hlast : IsGreatest {t | ∃ r ∈ s.records, r.sentAt = t} last)
include hlast

/-- The latest record has the last place. -/
theorem bucketPlace_lt (r : SampleRecord) (hr : r ∈ s.records) :
    bucketPlace first r.sentAt < bucketPlace first last + 1 :=
  Nat.lt_succ_of_le (bucketPlace_mono (hlast.2 ⟨r, hr, rfl⟩))

include hspan

/-- The buckets are what the counts are made into, place by place. -/
theorem getElem?_buckets (i : Nat) : s.buckets[i]? =
    ((List.range (bucketPlace first last + 1))[i]?.map
      fun i => s.records.countP (bucketPlace first ·.sentAt == i)).map fun messages =>
        let duration := bucketSeconds
          (bucketLength (last - first).toNat (bucketPlace first last + 1) i)
        { start := i * bucketMillis / 1000, messages, duration
          rate := countFloat messages / duration } := by
  rw [← List.getElem?_map, ← toList_bucketCounts (bucketPlace_lt hlast), buckets, hspan]
  exact List.getElem?_mapIdx

theorem map_messages_buckets : s.buckets.map (·.messages) =
    (List.range (bucketPlace first last + 1)).map
      fun i => s.records.countP (bucketPlace first ·.sentAt == i) := by
  refine List.ext_getElem? fun i => ?_
  rw [List.getElem?_map, getElem?_buckets hspan hlast, Option.map_map, List.getElem?_map]
  exact Option.map_id' ..

theorem length_buckets : s.buckets.length = bucketPlace first last + 1 := by
  have h := congrArg List.length (map_messages_buckets hspan hlast)
  rwa [List.length_map, List.length_map, List.length_range] at h

include hfirst

theorem fills_of_getElem? {i : Nat} {b : ThroughputBucket} (hb : s.buckets[i]? = some b) :
    s.Fills first last i b := by
  have hi : i < bucketPlace first last + 1 := by
    rw [← length_buckets hspan hlast]
    exact (List.getElem?_eq_some_iff.mp hb).1
  rw [getElem?_buckets hspan hlast, List.getElem?_range hi] at hb
  obtain rfl := Option.some.inj hb
  have hle : first ≤ last := hlast.2 hfirst.1
  constructor
  · show i * bucketMillis / 1000 = 10 * i
    rw [bucketMillis]
    omega
  · refine List.countP_congr fun r hr => ?_
    rw [beq_iff_eq, decide_eq_true_iff]
    exact bucketPlace_eq_iff (hfirst.2 ⟨r, hr, rfl⟩) i
  · have hrest : (last - first).toNat % bucketMillis = ((last - first) % 10000).toNat := by
      rw [bucketMillis]
      omega
    rw [length_buckets hspan hlast, ← hrest]
    exact bucketSeconds_bucketLength _ i
  · exact bucketSeconds_pos (bucketLength_lt _ i)
  · rfl

end Spanned

/-- **The buckets of a set of records** that is not empty divide the time from its first message to
its last, and its records with it. -/
theorem bucketed_of_records (h : s.records ≠ []) :
    ∃ first last, IsLeast {t | ∃ r ∈ s.records, r.sentAt = t} first ∧
      IsGreatest {t | ∃ r ∈ s.records, r.sentAt = t} last ∧ s.Bucketed first last := by
  obtain ⟨first, last, hspan, hfirst, hlast⟩ := exists_span h
  refine ⟨first, last, hfirst, hlast, ?_⟩
  have hlength := length_buckets hspan hlast
  have hplace : ∀ r ∈ s.records, bucketPlace first r.sentAt < bucketPlace first last + 1 :=
    bucketPlace_lt hlast
  constructor
  · obtain ⟨r, hr, rfl⟩ := hlast.1
    have hle := hfirst.2 ⟨r, hr, rfl⟩
    rw [hlength, bucketPlace, bucketMillis]
    omega
  · exact fun i b => fills_of_getElem? hspan hfirst hlast
  · intro r hr
    rw [hlength]
    have := hplace r hr
    omega
  · intro r hr
    have hiff := bucketPlace_eq_iff (hfirst.2 ⟨r, hr, rfl⟩)
    refine ⟨bucketPlace first r.sentAt, ⟨hlength ▸ hplace r hr, (hiff _).mp rfl⟩, ?_⟩
    exact fun i hi => ((hiff i).mpr hi.2).symm
  · rw [map_messages_buckets hspan hlast, sum_countP_range _ hplace, size]
  · intro i b hb hends
    rw [(fills_of_getElem? hspan hfirst hlast hb).messages, List.countP_pos_iff]
    simp only [decide_eq_true_iff]
    rcases hends with rfl | hi
    · obtain ⟨r, hr, rfl⟩ := hfirst.1
      exact ⟨r, hr, by omega⟩
    · obtain ⟨r, hr, rfl⟩ := hlast.1
      refine ⟨r, hr, (bucketPlace_eq_iff (hfirst.2 ⟨r, hr, rfl⟩) i).mp ?_⟩
      omega

/-- Three messages ten seconds apart, the earliest before the clock shows zero. -/
def onTheDot : List SampleRecord :=
  [-5000, -15000, 5000].map fun sentAt =>
    { sentAt, kind := .text, latency := 1, outcome := .ok, room := 1 }

/-- They begin a bucket each, and the last one has only the shortest time. -/
theorem bucketed_onTheDot : Bucketed ⟨onTheDot⟩ (-15000) 5000 ∧
    (RecordSet.mk onTheDot).buckets.map (·.messages) = [1, 1, 1] := by
  obtain ⟨first, last, hfirst, hlast, h⟩ := bucketed_of_records (s := ⟨onTheDot⟩) (by decide)
  have htimes : {t | ∃ r ∈ onTheDot, r.sentAt = t} = {-5000, -15000, 5000} := by
    ext t
    simp [onTheDot, eq_comm]
  rw [htimes] at hfirst hlast
  have hleast : first = -15000 :=
    hfirst.unique ⟨by decide, by rintro _ (rfl | rfl | rfl) <;> decide⟩
  have hgreatest : last = 5000 :=
    hlast.unique ⟨by decide, by rintro _ (rfl | rfl | rfl) <;> decide⟩
  exact ⟨hleast ▸ hgreatest ▸ h, by decide⟩

end RecordSet

end LoadRig
