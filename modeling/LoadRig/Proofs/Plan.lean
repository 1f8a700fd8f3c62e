import LoadRig.Plan
import Mathlib.Algebra.Order.BigOperators.Group.List
import Mathlib.Algebra.Order.Ring.Nat
import Mathlib.Data.List.TakeWhile
/-!
# The shares of the workers of a phase

The shares of a phase never exceed its messages, and while the number of messages has sixty-four bits
they make up all of them if there is a worker at all. Workers without a share are the last ones, so
leaving them out loses nothing. The phases of a configuration make up all messages that it asks for.

## Main definitions

* `LoadRig.PhasePlan.quotasIn`, `LoadRig.RunPlan.quotasIn` — the shares that go to a room.

## Main results

* `LoadRig.Config.warmupThreads_pos`, `LoadRig.Config.mainThreads_pos`, `LoadRig.Config.rooms_pos` — what a
  usable configuration has at least.
* `LoadRig.PhasePlan.sum_quotas_le` — the shares do not exceed the messages.
* `LoadRig.PhasePlan.sum_quotas` — they make up all of them.
* `LoadRig.RunPlan.totalMessages_ofConfig` — the phases of a configuration together.
-/

namespace LoadRig

/-! ### Usable configurations -/

theorem Config.checks_hold {c : Config} (h : c.broken? = none) {rule : ConfigRule} {holds : Bool}
    (hmem : (rule, holds) ∈ c.checks) : holds = true := by
  have hnone : c.checks.find? (!·.2) = none := by simpa [broken?] using h
  simpa using List.find?_eq_none.mp hnone _ hmem

theorem Config.warmupThreads_pos {c : Config} (h : c.broken? = none) : 0 < c.warmup.threads := by
  have hmem : (ConfigRule.warmupThreads, decide (0 < c.warmup.threads)) ∈ c.checks := by
    simp [checks]
  simpa using checks_hold h hmem

theorem Config.mainThreads_pos {c : Config} (h : c.broken? = none) : 0 < c.mainPhase.threads := by
  have hmem : (ConfigRule.mainThreads, decide (0 < c.mainPhase.threads)) ∈ c.checks := by
    simp [checks]
  simpa using checks_hold h hmem

theorem Config.rooms_pos {c : Config} (h : c.broken? = none) : 0 < c.load.rooms := by
  have hmem : (ConfigRule.rooms, decide (0 < c.load.rooms)) ∈ c.checks := by simp [checks]
  simpa using checks_hold h hmem

/-! ### Shares -/

/-- A share, where nothing stops at the greatest number. -/
theorem splitQuota_le (total workers idx : Nat) :
    splitQuota total workers idx ≤ total / workers + if idx < total % workers then 1 else 0 := by
  rw [splitQuota]
  split
  · exact Nat.zero_le _
  · split <;> omega

theorem splitQuota_eq {total workers idx : Nat} (h : total < wideLimit) (hw : 0 < workers) :
    splitQuota total workers idx
      = total / workers + if idx < total % workers then 1 else 0 := by
  have hmax := wordMax_succ
  rw [splitQuota, if_neg (by omega)]
  split
  · next hidx =>
    have hmod : total % workers ≤ total := Nat.mod_le ..
    have hdiv := Nat.div_add_mod total workers
    -- somebody is left over, so the share is less than the total
    have hle : total / workers ≤ workers * (total / workers) := Nat.le_mul_of_pos_left _ hw
    omega
  · rfl

/-- The first `r` of `n` workers take one more than the others. -/
theorem sum_range_share (q r n : Nat) :
    ((List.range n).map fun i => q + if i < r then 1 else 0).sum = n * q + min n r := by
  induction n with
  | zero => simp
  | succ n ih =>
    rw [List.range_succ, List.map_append, List.sum_append, ih, Nat.succ_mul]
    simp only [List.map_cons, List.map_nil, List.sum_cons, List.sum_nil]
    split <;> omega

theorem sum_range_total (total : Nat) {workers : Nat} (hw : 0 < workers) :
    ((List.range workers).map fun i =>
      total / workers + if i < total % workers then 1 else 0).sum = total := by
  have hlt : total % workers < workers := Nat.mod_lt _ hw
  rw [sum_range_share, Nat.min_eq_right hlt.le]
  exact Nat.div_add_mod total workers

/-- Nothing is lost with the end of a list from its first zero on, if only zeros follow. -/
theorem sum_takeWhile_pos {l : List Nat} (h : l.Pairwise fun a b => a = 0 → b = 0) :
    (l.takeWhile (0 < ·)).sum = l.sum := by
  induction l with
  | nil => rfl
  | cons a l ih =>
    obtain ⟨ha, hl⟩ := List.pairwise_cons.mp h
    rcases Nat.eq_zero_or_pos a with rfl | hpos
    · have hzero : l.sum = 0 := List.sum_eq_zero fun b hb => ha b hb rfl
      simp [hzero]
    · rw [List.takeWhile_cons_of_pos (by simpa using hpos), List.sum_cons, List.sum_cons, ih hl]

namespace PhasePlan

/-- **The shares of a phase do not exceed its messages.** -/
theorem sum_quotas_le (p : PhasePlan) : p.quotas.sum ≤ p.messages := by
  have hsub : p.quotas.sum ≤ ((List.range p.threads).map (splitQuota p.messages p.threads)).sum :=
    (List.takeWhile_prefix _).sublist.sum_le_sum fun _ _ => Nat.zero_le _
  refine hsub.trans ?_
  rcases Nat.eq_zero_or_pos p.threads with h0 | hpos
  · simp [h0]
  · calc _ ≤ ((List.range p.threads).map fun i =>
              p.messages / p.threads + if i < p.messages % p.threads then 1 else 0).sum :=
            List.sum_le_sum fun i _ => splitQuota_le _ _ i
      _ = p.messages := sum_range_total _ hpos

/-- **The shares of a phase make up its messages**, if it has workers at all. -/
theorem sum_quotas (p : PhasePlan) (hm : p.messages < wideLimit) (ht : 0 < p.threads) :
    p.quotas.sum = p.messages := by
  have heq : splitQuota p.messages p.threads = fun i =>
      p.messages / p.threads + if i < p.messages % p.threads then 1 else 0 :=
    funext fun _ => splitQuota_eq hm ht
  rw [quotas, sum_takeWhile_pos, heq, sum_range_total _ ht]
  rw [heq, List.pairwise_map]
  refine List.pairwise_lt_range.imp fun {i j} hij hi => ?_
  split at hi
  · exact absurd hi (Nat.succ_ne_zero _)
  · rw [if_neg (by omega)]; omega

/-- The shares that go to a room, which is the one that the number of the worker has in turn. -/
def quotasIn (p : PhasePlan) (rooms room : Nat) : List Nat :=
  (p.quotas.zipIdx.filter fun q => q.2 % rooms + 1 == room).map (·.1)

theorem pos_of_mem_quotasIn {p : PhasePlan} {rooms room q : Nat} (h : q ∈ p.quotasIn rooms room) :
    0 < q := by
  obtain ⟨x, hx, rfl⟩ := List.mem_map.mp h
  have hmem : x.1 ∈ p.quotas := List.fst_mem_of_mem_zipIdx (List.mem_filter.mp hx).1
  simpa using List.mem_takeWhile_imp hmem

end PhasePlan

namespace RunPlan

/-- The shares of all phases that go to a room. -/
def quotasIn (p : RunPlan) (rooms room : Nat) : List Nat :=
  p.warmup.quotasIn rooms room ++ (p.main.map (·.quotasIn rooms room)).getD []

/-- No share is empty, so a room without messages has no share at all. -/
theorem sum_quotasIn_eq_zero {p : RunPlan} {rooms room : Nat} :
    (p.quotasIn rooms room).sum = 0 ↔ p.quotasIn rooms room = [] := by
  constructor
  · intro hzero
    refine List.eq_nil_iff_forall_not_mem.mpr fun q hq => ?_
    have hq0 : q = 0 := List.sum_eq_zero_iff.mp hzero q hq
    rcases List.mem_append.mp hq with hq | hq
    · exact absurd hq0 (Nat.ne_of_gt (PhasePlan.pos_of_mem_quotasIn hq))
    · cases hmain : p.main with
      | none => simp [hmain] at hq
      | some main =>
        simp only [hmain, Option.map_some, Option.getD_some] at hq
        exact absurd hq0 (Nat.ne_of_gt (PhasePlan.pos_of_mem_quotasIn hq))
  · intro hnil
    rw [hnil, List.sum_nil]

/-- **The phases of a configuration make up all messages that it asks for.** -/
theorem totalMessages_ofConfig (c : Config) :
    (RunPlan.ofConfig c).totalMessages = c.load.totalMessages := by
  have hle : c.warmupTotal ≤ c.load.totalMessages := Nat.min_le_left ..
  have hsplit : c.mainTotal = c.load.totalMessages - c.warmupTotal := rfl
  by_cases hmain : 0 < c.mainTotal
  · simp only [totalMessages, ofConfig, if_pos hmain, Option.map_some, Option.getD_some]
    omega
  · simp only [totalMessages, ofConfig, if_neg hmain, Option.map_none, Option.getD_none]
    omega

/-- The main phase has the workers that the configuration gives it. -/
theorem threads_of_main {c : Config} {plan : PhasePlan} (h : (RunPlan.ofConfig c).main = some plan) :
    plan.threads = c.mainPhase.threads := by
  simp only [ofConfig] at h
  split at h
  · rw [← Option.some.inj h]
  · cases h

end RunPlan

end LoadRig
