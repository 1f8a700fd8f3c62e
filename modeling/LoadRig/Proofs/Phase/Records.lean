import LoadRig.Proofs.Phase.Shares
/-!
# The records of a finished phase

A sender records a message when it has brought it to an end, so the records of a phase are never more
than its messages. If nobody told the phase to stop, everybody got a connection and nobody was brought
down, then every sender has brought its whole share to an end, and the records of a room are the
shares of its senders together.

## Main results

* `LoadRig.Phase.Books.length_records_le` — the records of a phase are within its messages.
* `LoadRig.Phase.Shares.concluded_eq_quota` — a sender that nothing went wrong for.
* `LoadRig.Phase.countP_room_ofPlan`, `LoadRig.Phase.length_records_ofPlan` — the records of a room, and
  of a phase, if nothing went wrong.
-/

namespace LoadRig

open LoadRig.Random

/-- Nothing went wrong for a sender: it was not brought down, and it got its first connection. -/
def Sender.Fared (s : Sender) : Prop :=
  s.hasFallen = false ∧ ∀ reason, s.exit? ≠ some (.connectFailed reason)

namespace Phase

variable {σ : Type} {settings : RetrySettings} {p : Phase σ}

/-- Everything that was brought to an end is recorded. -/
theorem Books.length_records (hb : p.Books) :
    p.shared.pool.records.length = total Sender.concluded p.senders := by
  rw [length_eq_countP_outcome, hb.ok, hb.fail, hb.succeeded, hb.failed, ← total_add]
  rfl

/-- **The records of a phase are within its messages.** -/
theorem Books.length_records_le (hb : p.Books) :
    p.shared.pool.records.length ≤ p.producer.requested := by
  calc p.shared.pool.records.length = total Sender.concluded p.senders := hb.length_records
    _ ≤ total Sender.processed p.senders :=
        List.sum_le_sum fun s hs => (hb.sound s hs).concluded_le.1
    _ ≤ p.producer.produced := hb.produced ▸ Nat.le_add_right ..
    _ ≤ p.producer.requested := hb.supply.within

/-- **A sender that nothing went wrong for has brought its whole share to an end**, if the phase was
not told to stop. -/
theorem Shares.concluded_eq_quota (hp : p.Shares) (hd : p.isDone = true)
    (hstop : p.shared.stopping = false) {s : Sender} (hs : s ∈ p.senders) (hf : s.Fared) :
    s.concluded = s.quota := by
  obtain ⟨r, hr⟩ := exists_report (isDone_of_mem hd hs) hf.1
  obtain ⟨hproc, -, -, -, -, hquota, hst⟩ := Sender.report?_eq hr
  have hleft := ((hp.books.sound s hs).of_left hst).1
  rcases hp.inGoodOrder hstop hs hr with ⟨reason, hexit, -⟩ | ⟨-, hall⟩
  · exact absurd (by simp [Sender.exit?, hst, hexit]) (hf.2 reason)
  · rw [← hleft, ← hproc, hall, hquota]

/-- The records of a room are the shares of its senders. -/
theorem Shares.countP_room (hp : p.Shares) (hd : p.isDone = true)
    (hstop : p.shared.stopping = false) (hf : ∀ s ∈ p.senders, s.Fared) (room : Nat) :
    p.shared.pool.records.countP (·.room == room)
      = (p.roster.map fun r => if r.2.2 = room then r.2.1 else 0).sum := by
  rw [hp.books.rooms, total, roster, List.map_map]
  refine congrArg List.sum (List.map_congr_left fun s hs => ?_)
  simp only [concludedIn, Function.comp_apply, hp.concluded_eq_quota hd hstop hs (hf s hs)]

section Runs

variable [WordSource σ] {shared : Shared} {load : LoadConfig} {plan : PhasePlan}
  {generator : MessageGenerator σ} {ms : List PhaseMove}

/-- **The records of a room are the shares of the plan that go there.** -/
theorem countP_room_ofPlan (h : (ofPlan shared load plan generator).steps settings ms = some p)
    (hd : p.isDone = true) (hstop : p.shared.stopping = false) (hf : ∀ s ∈ p.senders, s.Fared)
    (hrooms : 0 < load.rooms) (room : Nat) :
    p.shared.pool.records.countP (·.room == room) = (plan.quotasIn load.rooms room).sum := by
  have hp : p.Shares := shares_steps h (shares_ofPlan shared load plan generator)
  have hmax : max load.rooms 1 = load.rooms := Nat.max_eq_left hrooms
  rw [hp.countP_room hd hstop hf, roster_steps h, roster_ofPlan, PhasePlan.quotasIn,
    ← sum_map_ite, List.mapIdx_eq_zipIdx_map, List.map_map]
  simp [roomFor, hmax, Function.comp_def]

/-- **The records are all messages of the plan.** -/
theorem length_records_ofPlan
    (h : (ofPlan shared load plan generator).steps settings ms = some p)
    (hd : p.isDone = true) (hstop : p.shared.stopping = false) (hf : ∀ s ∈ p.senders, s.Fared)
    (hm : plan.messages < wideLimit) (ht : 0 < plan.threads) :
    p.shared.pool.records.length = plan.messages := by
  have hp : p.Shares := shares_steps h (shares_ofPlan shared load plan generator)
  rw [hp.books.length_records]
  calc total Sender.concluded p.senders = total Sender.quota p.senders :=
        congrArg List.sum (List.map_congr_left fun s hs =>
          hp.concluded_eq_quota hd hstop hs (hf s hs))
    _ = plan.quotas.sum := by
        rw [total_quota_eq_roster, roster_steps h, ← total_quota_eq_roster, total_quota_ofPlan]
    _ = plan.messages := plan.sum_quotas hm ht

end Runs

end Phase

end LoadRig
