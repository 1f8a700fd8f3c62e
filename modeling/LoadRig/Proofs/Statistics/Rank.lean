import LoadRig.Statistics
import Mathlib.Algebra.Order.Floor.Div
import Mathlib.Data.List.Sort
import Mathlib.GroupTheory.GroupAction.Ring
/-!
# Which value a percentile is

A percentile is a value of its list, and which one is a matter of counting: enough values are not
greater, and too few are smaller. Where values are equal this does not settle the place, but it settles
the value. The place itself is found by dividing, rounding up, stepping back by one and holding the
result inside the list; `exists_place` says what these come to together.

The least and the greatest value of a list are percentiles too, the lowest one and any from the
hundredth on. So the values of a summary are in order because percentiles grow.

## Main definitions

* `LoadRig.HasRank` — a value of a list, by how many are not greater and how many are smaller.
* `LoadRig.NearestRank` — what is true of the percentiles of a list.
* `LoadRig.RecordSet.Graded` — the values of a summary are in order, between the true extremes.

## Main results

* `LoadRig.hasRank_getElem` — the value in a place of an ascending list.
* `LoadRig.exists_place` — the place of a percentile.
* `LoadRig.nearestRank_of_sortedLE`, `LoadRig.RecordSet.graded_of_records`
* `LoadRig.percentiles_ranked` — both together.
-/

namespace LoadRig

variable {sorted : List Nat} {p q : Nat}

/-! ### Places -/

/-- A value of a list such that at least `k` values are not greater and fewer than `k` are smaller. -/
structure HasRank (values : List Nat) (k v : Nat) : Prop where
  mem : v ∈ values
  le_countP : k ≤ values.countP (· ≤ v)
  countP_lt : values.countP (· < v) < k

/-- **The value in a place of an ascending list** has that place, counted from one, for its rank. -/
theorem hasRank_getElem (h : sorted.SortedLE) {i : Nat} (hi : i < sorted.length) :
    HasRank sorted (i + 1) sorted[i] where
  mem := List.getElem_mem hi
  le_countP := by
    -- the values up to the place are not greater
    have hall : ∀ v ∈ sorted.take (i + 1), v ≤ sorted[i] := by
      intro v hv
      obtain ⟨j, hj, rfl⟩ := List.mem_take_iff_getElem.mp hv
      exact h.getElem_le_getElem_of_le (by omega)
    calc i + 1 = (sorted.take (i + 1)).length := by rw [List.length_take]; omega
      _ = (sorted.take (i + 1)).countP (· ≤ sorted[i]) :=
        (List.countP_eq_length.mpr (by simpa using hall)).symm
      _ ≤ sorted.countP (· ≤ sorted[i]) := (List.take_sublist ..).countP_le
  countP_lt := by
    -- the values from the place on are not smaller
    have hnone : ∀ v ∈ sorted.drop i, sorted[i] ≤ v := by
      intro v hv
      obtain ⟨j, hj, rfl⟩ := List.mem_drop_iff_getElem.mp hv
      exact h.getElem_le_getElem_of_le (Nat.le_add_right ..)
    have hrest : (sorted.drop i).countP (· < sorted[i]) = 0 :=
      List.countP_eq_zero.mpr (by simpa using hnone)
    calc sorted.countP (· < sorted[i])
        = (sorted.take i).countP (· < sorted[i]) + (sorted.drop i).countP (· < sorted[i]) := by
          rw [← List.countP_append, List.take_append_drop]
      _ ≤ (sorted.take i).length := by rw [hrest]; exact List.countP_le_length
      _ < i + 1 := by rw [List.length_take]; omega

/-- The value that has the first rank is the least. -/
theorem HasRank.isLeast {values : List Nat} {v : Nat} (h : HasRank values 1 v) :
    IsLeast {t | t ∈ values} v := by
  have hnone : values.countP (· < v) = 0 := Nat.lt_one_iff.mp h.countP_lt
  exact ⟨h.mem, fun t ht => by simpa using List.countP_eq_zero.mp hnone t ht⟩

/-- **The place of a percentile**, counted from one, is the least that is not below `p` hundredths of
the length, held between the first place and the last. -/
theorem exists_place (h : sorted ≠ []) (p : Nat) :
    ∃ i, ∃ hi : i < sorted.length,
      i + 1 = max 1 (min (p * sorted.length ⌈/⌉ 100) sorted.length) ∧
        percentile sorted p = sorted[i] := by
  have hpos : 0 < sorted.length := List.length_pos_iff.mpr h
  have hrank : p * sorted.length ⌈/⌉ 100 = (p * sorted.length + 99) / 100 :=
    Nat.ceilDiv_eq_add_pred_div ..
  have hi : min ((p * sorted.length + 99) / 100 - 1) (sorted.length - 1) < sorted.length := by omega
  refine ⟨_, hi, by rw [hrank]; omega, ?_⟩
  rw [percentile, List.getElem?_eq_getElem hi, Option.getD_some]

/-! ### Percentiles -/

/-- What is true of the percentiles of a list. -/
structure NearestRank (sorted : List Nat) : Prop where
  hasRank : ∀ p ≤ 100,
    HasRank sorted (max 1 (p * sorted.length ⌈/⌉ 100)) (percentile sorted p)
  monotone : Monotone (percentile sorted)
  greatest : ∀ p, 100 ≤ p → IsGreatest {v | v ∈ sorted} (percentile sorted p)

theorem percentile_mono (h : sorted.SortedLE) : Monotone (percentile sorted) := by
  intro p q hpq
  rcases eq_or_ne sorted [] with rfl | hne
  · rfl
  obtain ⟨i, hi, hpi, hp⟩ := exists_place hne p
  obtain ⟨j, hj, hqj, hq⟩ := exists_place hne q
  have hrank : p * sorted.length ⌈/⌉ 100 ≤ q * sorted.length ⌈/⌉ 100 :=
    (gc_smul_ceilDiv (Nat.zero_lt_succ 99)).monotone_l (Nat.mul_le_mul_right _ hpq)
  rw [hp, hq]
  exact h.getElem_le_getElem_of_le (by omega)

/-- From the hundredth on, a percentile is the last value. -/
theorem percentile_eq_getLast (h : sorted ≠ []) (hp : 100 ≤ p) :
    percentile sorted p = sorted.getLast h := by
  obtain ⟨i, hi, hpi, heq⟩ := exists_place h p
  have hrank : sorted.length ≤ p * sorted.length ⌈/⌉ 100 := by
    have hceil : p * sorted.length ≤ 100 * (p * sorted.length ⌈/⌉ 100) :=
      le_smul_ceilDiv (Nat.zero_lt_succ 99)
    have hmul : 100 * sorted.length ≤ p * sorted.length := Nat.mul_le_mul_right _ hp
    omega
  have hlast : i = sorted.length - 1 := by omega
  subst hlast
  rw [heq, List.getLast_eq_getElem]

/-- The lowest percentile is the first value. -/
theorem percentile_zero (h : sorted ≠ []) : percentile sorted 0 = sorted.head h := by
  obtain ⟨i, hi, hpi, heq⟩ := exists_place h 0
  have hrank : 0 * sorted.length ⌈/⌉ 100 = 0 := by rw [Nat.zero_mul, zero_ceilDiv]
  have hfirst : i = 0 := by omega
  subst hfirst
  rw [heq, List.head_eq_getElem]

/-- **The percentiles of an ascending list** are its nearest ranks. -/
theorem nearestRank_of_sortedLE (hne : sorted ≠ []) (h : sorted.SortedLE) : NearestRank sorted where
  hasRank := by
    intro p hp
    obtain ⟨i, hi, hpi, heq⟩ := exists_place hne p
    have hrank : p * sorted.length ⌈/⌉ 100 ≤ sorted.length :=
      (ceilDiv_le_iff_le_smul (Nat.zero_lt_succ 99)).mpr (Nat.mul_le_mul_right _ hp)
    rw [Nat.min_eq_left hrank] at hpi
    rw [← hpi, heq]
    exact hasRank_getElem h hi
  monotone := percentile_mono h
  greatest := by
    intro p hp
    rw [percentile_eq_getLast hne hp]
    refine ⟨List.getLast_mem hne, fun v hv => ?_⟩
    obtain ⟨i, hi, rfl⟩ := List.getElem_of_mem hv
    rw [List.getLast_eq_getElem]
    exact h.getElem_le_getElem_of_le (by omega)

/-! ### Summaries -/

namespace RecordSet

/-- The values of the summary of latencies are in order, between the true extremes. -/
structure Graded (s : RecordSet) : Prop where
  least_le : s.latency.least ≤ s.latency.p50
  p50_le : s.latency.p50 ≤ s.latency.p95
  p95_le : s.latency.p95 ≤ s.latency.p99
  p99_le : s.latency.p99 ≤ s.latency.greatest
  least : IsLeast {t | ∃ r ∈ s.records, r.latency = t} s.latency.least
  greatest : IsGreatest {t | ∃ r ∈ s.records, r.latency = t} s.latency.greatest

theorem graded_of_records {s : RecordSet} (h : s.records ≠ []) : s.Graded := by
  let sorted := (s.records.map (·.latency)).mergeSort (· ≤ ·)
  have hasc : sorted.SortedLE := List.sortedLE_mergeSort
  have hmem : {t | t ∈ sorted} = {t | ∃ r ∈ s.records, r.latency = t} := by
    ext t
    simp [sorted]
  have hne : sorted ≠ [] := by
    refine List.ne_nil_of_length_pos ?_
    rw [List.length_mergeSort, List.length_map]
    exact List.length_pos_iff.mpr h
  have hranks := nearestRank_of_sortedLE hne hasc
  -- both ends of the summary are percentiles
  have hleast : s.latency.least = percentile sorted 0 :=
    (congrArg (Option.getD · 0) (List.head?_eq_some_head hne)).trans (percentile_zero hne).symm
  have hgreatest : s.latency.greatest = percentile sorted 100 :=
    (congrArg (Option.getD · 0) (List.getLast?_eq_some_getLast hne)).trans
      (percentile_eq_getLast hne le_rfl).symm
  constructor
  · rw [hleast]
    exact hranks.monotone (by decide)
  · exact hranks.monotone (by decide)
  · exact hranks.monotone (by decide)
  · rw [hgreatest]
    exact hranks.monotone (by decide)
  · rw [hleast, ← hmem]
    have hfirst := hranks.hasRank 0 (Nat.zero_le _)
    rw [Nat.zero_mul, zero_ceilDiv] at hfirst
    exact hfirst.isLeast
  · rw [hgreatest, ← hmem]
    exact hranks.greatest 100 le_rfl

end RecordSet

/-- **Percentiles are nearest ranks**: those of every ascending list that is not empty, and so the
summary of every set of records that is not, in whatever order they were recorded, is in order between
the true extremes. -/
theorem percentiles_ranked :
    (∀ sorted : List Nat, sorted ≠ [] → sorted.SortedLE → NearestRank sorted) ∧
      ∀ s : RecordSet, s.records ≠ [] → s.Graded :=
  ⟨fun _ => nearestRank_of_sortedLE, fun _ => RecordSet.graded_of_records⟩

/-- Five latencies, two of them equal, as they were recorded. -/
def scattered : List SampleRecord :=
  [40, 10, 50, 40, 20].map fun latency =>
    { sentAt := 0, kind := .text, latency, outcome := .ok, room := 1 }

/-- The middle one has rank three, as does its equal, and the summary goes from ten to fifty. -/
theorem percentiles_ranked_scattered :
    HasRank [10, 20, 40, 40, 50] 3 (percentile [10, 20, 40, 40, 50] 50) ∧
      percentile [10, 20, 40, 40, 50] 50 = 40 ∧
      RecordSet.Graded ⟨scattered⟩ := by
  have hranks := percentiles_ranked.1 [10, 20, 40, 40, 50] (by decide) (by decide)
  exact ⟨hranks.hasRank 50 (by decide), by decide, percentiles_ranked.2 ⟨scattered⟩ (by decide)⟩

end LoadRig
