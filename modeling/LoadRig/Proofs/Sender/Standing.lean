import LoadRig.Proofs.Sender.Ledger
/-!
# Where a sender can stand

What a sender has done so far follows from its stage up to a message in its hand: a sender at the
queue has brought to an end what it took and has some of its quota left, a sender with a message in
its hand has taken one more than it has ended, and a sender that leaves has a reason that fits its
tally. Only a sender that was brought down may or may not have had a message in its hand.

A reason to leave is also a fact about the phase at that moment. `Sender.Grounds` names it, and
`Sender.grounds_step` says that no sender gets a reason in any other way.

## Main definitions

* `LoadRig.SenderExit.Fits` — a reason to leave that fits a tally.
* `LoadRig.Sender.Sound` — the tally of a sender fits its stage.
* `LoadRig.Sender.exit?` — the reason of a sender that leaves or has left.
* `LoadRig.Sender.Grounds` — what is true when a sender gets a reason.

## Main results

* `LoadRig.Sender.sound_start`, `LoadRig.Sender.sound_step` — every sender is sound at all times.
* `LoadRig.Sender.consumers_step` — a sender lets go of the queue when it is done, and only then.
* `LoadRig.Sender.grounds_step` — a sender that gets a reason has grounds for it.
-/

namespace LoadRig

/-- A reason to leave fits a tally: the whole quota, less than the quota, or nothing at all. -/
def SenderExit.Fits (processed quota : Nat) : SenderExit → Prop
  | .quotaReached => processed = quota
  | .queueDrained | .shutdown => processed < quota
  | .connectFailed _ => processed = 0

theorem SenderExit.Fits.le {processed quota : Nat} {exit : SenderExit}
    (h : exit.Fits processed quota) : processed ≤ quota := by
  cases exit with
  | quotaReached => exact Nat.le_of_eq h
  | queueDrained | shutdown => exact Nat.le_of_lt h
  | connectFailed reason => exact Nat.le_trans (Nat.le_of_eq h) (Nat.zero_le quota)

/-- Where the first connection did not fail, the quota is given as the reason exactly if it is done. -/
theorem SenderExit.Fits.eq_quotaReached_iff {processed quota : Nat} {exit : SenderExit}
    (h : exit.Fits processed quota) (hne : ∀ reason, exit ≠ .connectFailed reason) :
    exit = .quotaReached ↔ processed = quota := by
  cases exit with
  | quotaReached => exact iff_of_true rfl h
  | queueDrained | shutdown => exact iff_of_false (by simp) (Nat.ne_of_lt h)
  | connectFailed reason => exact absurd rfl (hne reason)

namespace Sender

/-- The tally of a sender fits its stage. -/
def Sound (s : Sender) : Prop :=
  match s.stage with
  | .dialing => s.processed = 0 ∧ s.concluded = 0
  | .waiting => s.processed = s.concluded ∧ s.processed < s.quota
  | .repairing _ | .trying _ => s.processed = s.concluded + 1 ∧ s.processed ≤ s.quota
  | .closing exit | .left exit => s.processed = s.concluded ∧ exit.Fits s.processed s.quota
  | .crashed =>
    s.concluded ≤ s.processed ∧ s.processed ≤ s.concluded + 1 ∧ s.processed ≤ s.quota

/-- The reason of a sender that leaves or has left. -/
def exit? (s : Sender) : Option SenderExit :=
  match s.stage with
  | .closing exit | .left exit => some exit
  | _ => none

/-- What is true of a sender and of its phase when the sender gets a reason to leave. -/
def Grounds (sh : Shared) (s : Sender) : SenderExit → Prop
  | .queueDrained => s.stage = .waiting ∧ sh.queue.toList = [] ∧ sh.queue.producer = false
  | .shutdown => s.stage = .waiting ∧ sh.stopping = true
  | .connectFailed _ => s.stage = .dialing
  | .quotaReached => True

/-! ### Tallies -/

section Sound

variable {settings : RetrySettings} {sh : Shared} {s : Sender} {e : SenderEvent}
  {y : Shared × Sender}

theorem Sound.concluded_le (h : s.Sound) :
    s.concluded ≤ s.processed ∧ s.processed ≤ s.concluded + 1 := by
  cases hs : s.stage with
  | dialing | waiting | repairing | trying | closing | left | crashed =>
    simp only [Sound, hs] at h
    omega

/-- No sender takes more than its quota. -/
theorem Sound.processed_le (h : s.Sound) : s.processed ≤ s.quota := by
  cases hs : s.stage with
  | closing exit | left exit =>
    simp only [Sound, hs] at h
    exact h.2.le
  | dialing | waiting | repairing | trying | crashed =>
    simp only [Sound, hs] at h
    omega

/-- A sender that has left has brought everything to an end that it took. -/
theorem Sound.of_left (h : s.Sound) {exit : SenderExit} (hs : s.stage = .left exit) :
    s.processed = s.concluded ∧ exit.Fits s.processed s.quota := by
  simpa [Sound, hs] using h

/-- What a sender reports is its own tally. -/
theorem report?_eq {r : SenderReport} (h : s.report? = some r) :
    r.processed = s.processed ∧ r.succeeded = s.succeeded ∧ r.failed = s.failed ∧
      r.room = s.room ∧ r.id = s.id ∧ r.quota = s.quota ∧ s.stage = .left r.exit := by
  unfold report? at h
  split at h
  · next hs => rw [← Option.some.inj h]; exact ⟨rfl, rfl, rfl, rfl, rfl, rfl, hs⟩
  · cases h

theorem sound_start (id quota room : Nat) : (start id quota room).Sound := ⟨rfl, rfl⟩

theorem sound_goOn (h : s.processed = s.concluded) (hq : s.processed ≤ s.quota) : s.goOn.Sound := by
  rw [goOn]
  split
  · next hlt => exact ⟨h, hlt⟩
  · exact ⟨h, by show s.processed = s.quota; omega⟩

/-- Whatever becomes of a message in its hand, a sender is sound when the message has ended. -/
theorem sound_conclude (t : Trial) (o : SendOutcome) (h : s.processed = s.concluded + 1)
    (hq : s.processed ≤ s.quota) : (conclude t o sh s).2.Sound := by
  cases ho : o.isSuccess with
  | true =>
    simp only [conclude, ho, if_true]
    refine sound_goOn ?_ hq
    show s.processed = s.succeeded + 1 + s.failed
    rw [concluded] at h; omega
  | false =>
    simp only [conclude, ho, Bool.false_eq_true, if_false]
    exact sound_goOn h hq

theorem sound_follow (t : Trial) (status : RetryStatus) (h : s.processed = s.concluded + 1)
    (hq : s.processed ≤ s.quota) : (follow t status sh s).2.Sound := by
  cases status with
  | going retry => exact ⟨h, hq⟩
  | ended o => exact sound_conclude t o h hq

theorem sound_tryItem (item : WorkItem) (h : s.processed = s.concluded + 1)
    (hq : s.processed ≤ s.quota) : (tryItem settings item sh s).2.Sound :=
  sound_follow _ _ h hq

theorem sound_accept (item : WorkItem) (h : s.processed = s.concluded) (hq : s.processed < s.quota) :
    (accept settings item sh s).2.Sound := by
  have h' : s.processed + 1 = s.concluded + 1 := by omega
  simp only [accept]
  split
  · exact sound_tryItem item h' hq
  · exact ⟨h', hq⟩

theorem isDone_eq_false_of_step (h : s.step settings sh e = some y) : s.isDone = false := by
  cases does_of_step h with
  | lost hd | crashed hd => exact hd
  | connected _ hs | refused _ hs | repaired _ _ hs | tried _ _ _ _ _ hs | told hs | took _ _ hs
  | drained _ hs | starved _ hs | closed _ hs => simp [isDone, hs]

/-- **The tally fits the stage at all times.** -/
theorem sound_step (h : s.step settings sh e = some y) (hs : s.Sound) : y.2.Sound := by
  have hle := hs.processed_le
  have hc := hs.concluded_le
  unfold Sound at hs
  cases does_of_step h with
  | connected u hst =>
    rw [hst] at hs
    exact sound_goOn (hs.1.trans hs.2.symm) hle
  | refused e hst =>
    rw [hst] at hs
    exact ⟨hs.1.trans hs.2.symm, hs.1⟩
  | repaired r item hst =>
    rw [hst] at hs
    exact sound_tryItem item hs.1 hle
  | tried e e' t l status hst hstep =>
    rw [hst] at hs
    exact sound_follow t status hs.1 hle
  | told hst _ | drained _ hst _ _ =>
    rw [hst] at hs
    exact hs
  | took item queue hst _ _ =>
    rw [hst] at hs
    exact sound_accept item hs.1 hs.2
  | starved queue hst _ _ =>
    rw [hst] at hs
    simpa only [Sound, hst] using hs
  | closed exit hst =>
    rw [hst] at hs
    exact hs
  | lost hd => exact hs
  | crashed hd => exact ⟨hc.1, hc.2, hle⟩

end Sound

/-! ### Leaving -/

section Leaving

variable {settings : RetrySettings} {sh : Shared} {s : Sender} {e : SenderEvent}
  {y : Shared × Sender} {exit : SenderExit}

@[simp] theorem isDone_goOn (s : Sender) : s.goOn.isDone = false := by
  rw [goOn]
  split <;> rfl

theorem exit?_goOn (h : s.goOn.exit? = some exit) : exit = .quotaReached := by
  unfold goOn at h
  split at h
  · cases h
  · exact (Option.some.inj h).symm

/-- A sender that goes on with its work leaves the queue alone, is not done, and if it leaves now
then because its quota is used up. -/
structure KeepsOn (queue : Queue WorkItem) (y : Shared × Sender) : Prop where
  queue_eq : y.1.queue = queue
  isDone_eq : y.2.isDone = false
  reason : ∀ exit, y.2.exit? = some exit → exit = .quotaReached

theorem keepsOn_follow (sh : Shared) (s : Sender) (t : Trial) (status : RetryStatus) :
    KeepsOn sh.queue (follow t status sh s) := by
  cases status with
  | going retry => exact ⟨rfl, rfl, by simp [follow, exit?]⟩
  | ended o => exact ⟨rfl, isDone_goOn _, fun _ => exit?_goOn⟩

theorem keepsOn_tryItem (settings : RetrySettings) (sh : Shared) (s : Sender) (item : WorkItem) :
    KeepsOn sh.queue (tryItem settings item sh s) :=
  keepsOn_follow (s.withLine sh _).1 _ _ _

theorem keepsOn_accept (settings : RetrySettings) (sh : Shared) (s : Sender) (item : WorkItem) :
    KeepsOn sh.queue (accept settings item sh s) := by
  simp only [accept]
  split
  · exact keepsOn_tryItem settings _ _ item
  · exact ⟨rfl, rfl, by simp [exit?]⟩

/-- **A sender that is done has let go of the queue.** No other step changes the number of its
consumers. -/
theorem consumers_step (h : s.step settings sh e = some y) :
    y.1.queue.consumers =
      if y.2.isDone then sh.queue.consumers - 1 else sh.queue.consumers := by
  cases does_of_step h with
  | connected u hs => rw [isDone_goOn]; rfl
  | refused e hs | closed exit hs | crashed hd => rfl
  | repaired r item hs =>
    have hk := keepsOn_tryItem settings (s.withLine sh ((s.line sh).settle r)).1
      (s.withLine sh ((s.line sh).settle r)).2 item
    rw [hk.isDone_eq, hk.queue_eq]; rfl
  | tried e e' t l status hs hstep =>
    have hk := keepsOn_follow (s.withLine sh l).1 (s.withLine sh l).2 t status
    rw [hk.isDone_eq, hk.queue_eq]; rfl
  | told hs _ | drained _ hs _ _ => rfl
  | took item queue hs _ hq =>
    have hk := keepsOn_accept settings { sh with queue } s item
    rw [hk.isDone_eq, hk.queue_eq]
    exact (Queue.poll_item hq).2.2
  | starved queue hs _ _ => rw [isDone_eq_false_of_step h]; rfl
  | lost hd =>
    rw [show ({ s with connection := s.connection.lose } : Sender).isDone = s.isDone from rfl, hd]
    rfl

/-- No sender changes what the queue can hold. -/
theorem capacity_step (h : s.step settings sh e = some y) :
    y.1.queue.capacity = sh.queue.capacity := by
  cases does_of_step h with
  | connected | refused | closed | crashed | told | drained | starved | lost => rfl
  | repaired r item hs => rw [(keepsOn_tryItem settings _ _ item).queue_eq]; rfl
  | tried e e' t l status hs hstep => rw [(keepsOn_follow _ _ t status).queue_eq]; rfl
  | took item queue hs _ hq =>
    rw [(keepsOn_accept settings _ _ item).queue_eq]
    exact Queue.capacity_poll_item hq

/-- **A sender that gets a reason to leave has grounds for it.** -/
theorem grounds_step (h : s.step settings sh e = some y) (hy : y.2.exit? = some exit) :
    s.exit? = some exit ∨ Grounds sh s exit := by
  cases does_of_step h with
  | connected u hs =>
    rw [exit?_goOn hy]
    exact .inr trivial
  | refused e hs =>
    rw [← Option.some.inj hy]
    exact .inr hs
  | repaired r item hs =>
    rw [(keepsOn_tryItem settings _ _ item).reason exit hy]
    exact .inr trivial
  | tried e e' t l status hs hstep =>
    rw [(keepsOn_follow _ _ t status).reason exit hy]
    exact .inr trivial
  | told hs hstop =>
    rw [← Option.some.inj hy]
    exact .inr ⟨hs, hstop⟩
  | took item queue hs _ hq =>
    rw [(keepsOn_accept settings _ _ item).reason exit hy]
    exact .inr trivial
  | drained queue hs _ hq =>
    rw [← Option.some.inj hy]
    exact .inr ⟨hs, Queue.poll_drained hq⟩
  | starved queue hs _ _ => exact .inl hy
  | closed exit' hs =>
    left
    simpa [exit?, hs, leave] using hy
  | lost hd => exact .inl hy
  | crashed hd => cases hy

end Leaving

end Sender

end LoadRig
