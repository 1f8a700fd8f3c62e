import LoadRig.Proofs.Plan
/-!
# The division of a run

A run is divided twice: its messages over the two phases, and the messages of a phase over its workers.
Nothing is lost and nothing is made up at either place, whatever the sizes. The product of the workers
of warmup and of what each may send need not fit sixty-four bits. It is stopped at the greatest number,
which is no smaller than the messages of the run, so warmup takes exactly the smaller of the product and
the messages. And the shares of a phase are as even as they can be: the workers up to the remainder
take one message more than the others, and whoever would have nothing to do is left out.

## Main definitions

* `LoadRig.PhasePlan.Even` — the shares of a phase are even and make up its messages.
* `LoadRig.RunPlan.Divides` — the phases of a plan make up the messages of a configuration.

## Main results

* `LoadRig.PhasePlan.quotas_eq` — the shares, worker by worker, up to the last that has one.
* `LoadRig.PhasePlan.even_of_threads` — they are even.
* `LoadRig.RunPlan.divides_ofConfig` — the plan of every usable configuration.
-/

namespace LoadRig

/-! ### Shares -/

/-- A share is empty exactly from the worker on whose number is that of the messages. -/
theorem splitQuota_pos_iff {total workers idx : Nat} (h : total < wideLimit) (hidx : idx < workers) :
    0 < splitQuota total workers idx ↔ idx < total := by
  rw [splitQuota_eq h (Nat.zero_lt_of_lt hidx)]
  rcases Nat.lt_or_ge total workers with hlt | hge
  · rw [Nat.div_eq_of_lt hlt, Nat.mod_eq_of_lt hlt]
    split <;> omega
  · have hdiv : 0 < total / workers := Nat.div_pos hge (Nat.zero_lt_of_lt hidx)
    exact iff_of_true (Nat.add_pos_left hdiv _) (hidx.trans_le hge)

/-- A list that goes on as long as a number is below a bound. -/
theorem takeWhile_map_range {f : Nat → Nat} {p : Nat → Bool} {n k : Nat} (hk : k ≤ n)
    (hp : ∀ i < n, p (f i) = decide (i < k)) :
    ((List.range n).map f).takeWhile p = (List.range k).map f := by
  obtain ⟨d, rfl⟩ := Nat.exists_eq_add_of_le hk
  have hall : ∀ q ∈ (List.range k).map f, p q = true := by
    intro q hq
    obtain ⟨i, hi, rfl⟩ := List.mem_map.mp hq
    have hlt : i < k := List.mem_range.mp hi
    rw [hp i (by omega)]
    exact decide_eq_true hlt
  rw [List.range_add, List.map_append, List.takeWhile_append_of_pos hall]
  cases d with
  | zero => simp
  | succ d =>
    have hstop : p (f k) = false := by rw [hp k (by omega)]; simp
    rw [List.range_succ_eq_map]
    simp [hstop]

namespace PhasePlan

variable {p : PhasePlan}

/-- **The shares of a phase**, worker by worker, up to the last that has one. -/
theorem quotas_eq (hm : p.messages < wideLimit) :
    p.quotas = (List.range (min p.messages p.threads)).map (splitQuota p.messages p.threads) := by
  refine takeWhile_map_range (Nat.min_le_right ..) fun i hi => decide_eq_decide.mpr ?_
  rw [splitQuota_pos_iff hm hi]
  omega

/-- The shares of a phase are even, none is empty, and together they are its messages. -/
structure Even (p : PhasePlan) : Prop where
  length : p.quotas.length = min p.messages p.threads
  pos : ∀ q ∈ p.quotas, 0 < q
  antitone : p.quotas.Pairwise (· ≥ ·)
  close : ∀ q ∈ p.quotas, ∀ q' ∈ p.quotas, q ≤ q' + 1
  sum : p.quotas.sum = p.messages

/-- A share is what an even division gives, or one more. -/
theorem mem_quotas {q : Nat} (hm : p.messages < wideLimit) (hq : q ∈ p.quotas) :
    p.messages / p.threads ≤ q ∧ q ≤ p.messages / p.threads + 1 := by
  rw [quotas_eq hm] at hq
  obtain ⟨i, hi, rfl⟩ := List.mem_map.mp hq
  have hi : i < min p.messages p.threads := List.mem_range.mp hi
  rw [splitQuota_eq hm (by omega)]
  split <;> omega

/-- **The shares of every phase with a worker are even.** -/
theorem even_of_threads (hm : p.messages < wideLimit) (ht : 0 < p.threads) : p.Even where
  length := by rw [quotas_eq hm, List.length_map, List.length_range]
  pos q hq := by simpa using List.mem_takeWhile_imp hq
  antitone := by
    rw [quotas_eq hm, List.pairwise_map]
    refine List.pairwise_lt_range.imp fun {i j} hij => ?_
    rw [splitQuota_eq hm ht, splitQuota_eq hm ht]
    split <;> split <;> omega
  close q hq q' hq' := by
    have := mem_quotas hm hq
    have := mem_quotas hm hq'
    omega
  sum := sum_quotas p hm ht

/-- No share exceeds a bound whose multiple by the workers covers the messages. -/
theorem le_of_mem_quotas {q most : Nat} (hm : p.messages < wideLimit)
    (hle : p.messages ≤ p.threads * most) (hq : q ∈ p.quotas) : q ≤ most := by
  rw [quotas_eq hm] at hq
  obtain ⟨i, hi, rfl⟩ := List.mem_map.mp hq
  have hi : i < min p.messages p.threads := List.mem_range.mp hi
  have ht : 0 < p.threads := by omega
  rw [splitQuota_eq hm ht]
  split
  · -- somebody is left over, so the bound has not been reached by an even division
    next hrem =>
    have hdiv := Nat.div_add_mod p.messages p.threads
    have hlt : p.threads * (p.messages / p.threads) < p.threads * most := by omega
    exact Nat.lt_of_mul_lt_mul_left hlt
  · exact Nat.div_le_of_le_mul hle

end PhasePlan

/-! ### Phases -/

namespace RunPlan

/-- The phases of a plan, one or two. -/
def phases (p : RunPlan) : List PhasePlan := p.warmup :: p.main.toList

/-- The phases of a plan make up the messages of a configuration, and no number on the way leaves the
range of sixty-four bits. -/
structure Divides (p : RunPlan) (c : Config) : Prop where
  /-- What warmup may send at most is a number of sixty-four bits. -/
  ceiling_lt : c.warmupCeiling < wideLimit
  /-- What warmup takes can be taken away from all messages. -/
  warmup_le : p.warmup.messages ≤ c.load.totalMessages
  total : p.warmup.messages + (p.main.map (·.messages)).getD 0 = c.load.totalMessages
  total_lt : p.totalMessages < wideLimit
  warmup_le_mul : p.warmup.messages ≤ c.warmup.threads * c.warmup.messagesPerThread
  main_eq_none : p.main = none ↔ p.warmup.messages = c.load.totalMessages
  covers : p.warmup.messages = c.load.totalMessages ↔
    c.load.totalMessages ≤ c.warmup.threads * c.warmup.messagesPerThread
  even : ∀ phase ∈ p.phases, phase.Even
  quota_le : ∀ q ∈ p.warmup.quotas, q ≤ c.warmup.messagesPerThread

/-- Where the messages have sixty-four bits, warmup takes the smaller of them and of what its workers may
send, as if nothing stopped at the greatest number. -/
theorem warmupTotal_eq {c : Config} (h : c.load.totalMessages < wideLimit) :
    c.warmupTotal = min c.load.totalMessages (c.warmup.threads * c.warmup.messagesPerThread) := by
  have hmax := wordMax_succ
  rw [Config.warmupTotal, Config.warmupCeiling]
  omega

theorem main_eq_none_iff (c : Config) : (ofConfig c).main = none ↔ c.mainTotal = 0 := by
  simp [ofConfig]

/-- **The plan of every usable configuration** divides its messages; and the shares of every phase that
has a worker are even. -/
theorem divides_ofConfig (c : Config) (hvalid : c.broken? = none)
    (htotal : c.load.totalMessages < wideLimit) :
    (ofConfig c).Divides c ∧
      ∀ p : PhasePlan, p.messages < wideLimit → 0 < p.threads → p.Even := by
  have hwarmup := warmupTotal_eq htotal
  have hmessages : (ofConfig c).warmup.messages = c.warmupTotal := rfl
  have hmain : c.mainTotal = c.load.totalMessages - c.warmupTotal := rfl
  have hsum := totalMessages_ofConfig c
  refine ⟨?_, fun p hm ht => PhasePlan.even_of_threads hm ht⟩
  constructor
  case ceiling_lt =>
    have hmax := wordMax_succ
    rw [Config.warmupCeiling]
    omega
  case warmup_le => omega
  case total => exact hsum
  case total_lt => rw [hsum]; exact htotal
  case warmup_le_mul => omega
  case main_eq_none => rw [main_eq_none_iff]; omega
  case covers => omega
  case even =>
    intro phase hphase
    rcases List.mem_cons.mp hphase with rfl | hphase
    · exact PhasePlan.even_of_threads (by omega) (Config.warmupThreads_pos hvalid)
    · have hphase : (ofConfig c).main = some phase := Option.mem_toList.mp hphase
      have ht : 0 < phase.threads := threads_of_main hphase ▸ Config.mainThreads_pos hvalid
      have hle : phase.messages ≤ c.load.totalMessages := by
        rw [← hsum, totalMessages, hphase, Option.map_some, Option.getD_some]
        exact Nat.le_add_left ..
      exact PhasePlan.even_of_threads (hle.trans_lt htotal) ht
  case quota_le =>
    intro q hq
    have hle : (ofConfig c).warmup.messages ≤
        (ofConfig c).warmup.threads * c.warmup.messagesPerThread := by
      show c.warmupTotal ≤ c.warmup.threads * c.warmup.messagesPerThread
      omega
    exact PhasePlan.le_of_mem_quotas (by omega) hle hq

/-- As many messages as sixty-four bits hold, and three workers in warmup who may send more than that. -/
def greatestConfig : Config :=
  { load := { totalMessages := wordMax }
    warmup := { threads := 3, messagesPerThread := wordMax }
    mainPhase := { threads := 1 } }

/-- Warmup takes all of them, in three shares. -/
theorem divides_greatestConfig : greatestConfig.broken? = none ∧
    greatestConfig.load.totalMessages < wideLimit ∧ (ofConfig greatestConfig).main = none ∧
    (ofConfig greatestConfig).warmup.quotas.length = 3 ∧
    (ofConfig greatestConfig).warmup.quotas.sum = wordMax := by
  have hvalid : greatestConfig.broken? = none := by decide
  have htotal : greatestConfig.load.totalMessages < wideLimit := by decide
  obtain ⟨hdivides, -⟩ := divides_ofConfig greatestConfig hvalid htotal
  have heven := hdivides.even _ List.mem_cons_self
  have hall : (ofConfig greatestConfig).warmup.messages = wordMax := by decide
  exact ⟨hvalid, htotal, hdivides.main_eq_none.mpr hall, heven.length.trans (by decide),
    heven.sum.trans hall⟩

end RunPlan

end LoadRig
