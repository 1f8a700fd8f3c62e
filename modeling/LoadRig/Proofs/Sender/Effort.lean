import LoadRig.Proofs.Sender.Standing
/-!
# What is left to do for a sender

A sender has no more to do than its quota asks for: for each message that it may still take, a look
at the queue, a repair and all attempts; for the message in its hand, what is left of it; and at the
end the closing of its connection. `Sender.weight` counts this, with one more for a link that is open
and may close by itself. Everything that happens to a sender lowers it, except for two things that
change nothing at all: a look that finds neither an item nor a reason to leave, and the loss of a
link that is not open.

## Main definitions

* `LoadRig.Sender.Within` — the message in a sender's hand is at one of its allowed attempts.
* `LoadRig.Sender.effort`, `LoadRig.Sender.weight` — what is left to do at most.
* `LoadRig.Sender.Idles` — an event that changes nothing.
* `LoadRig.Sender.deadline?` — the end of a sender's pause.
* `LoadRig.Sender.awaits` — the event that a sender waits for.

## Main results

* `LoadRig.Sender.within_step` — no sender goes beyond the allowed attempts.
* `LoadRig.Sender.eq_of_idles`, `LoadRig.Sender.weight_step` — every event changes nothing or lowers
  the weight.
* `LoadRig.Sender.exists_step` — a sender that is not done can go on.
-/

namespace LoadRig

namespace Sender

variable {settings : RetrySettings} {sh : Shared} {s : Sender} {e : SenderEvent}
  {y : Shared × Sender}

/-! ### Attempts -/

/-- The message in a sender's hand, if there is one, is at one of its allowed attempts. -/
def Within (settings : RetrySettings) (s : Sender) : Prop :=
  match s.stage with
  | .trying t => t.retry.Within settings
  | _ => True

theorem Within.of_trying (h : s.Within settings) {t : Trial} (hs : s.stage = .trying t) :
    t.retry.Within settings := by
  simpa only [Within, hs] using h

theorem within_start (id quota room : Nat) : (start id quota room).Within settings := trivial

theorem within_goOn (s : Sender) : s.goOn.Within settings := by
  rw [goOn]
  split <;> exact trivial

theorem within_follow (t : Trial) {status : RetryStatus} (h : status.Within settings) :
    (follow t status sh s).2.Within settings := by
  cases status with
  | going retry => exact h
  | ended o => exact within_goOn _

theorem within_tryItem (item : WorkItem) : (tryItem settings item sh s).2.Within settings :=
  within_follow _ (Retry.within_start settings _)

theorem within_accept (item : WorkItem) : (accept settings item sh s).2.Within settings := by
  simp only [accept]
  split
  · exact within_tryItem item
  · exact trivial

theorem within_step (h : s.step settings sh e = some y) (hw : s.Within settings) :
    y.2.Within settings := by
  cases does_of_step h with
  | connected u hs => exact within_goOn _
  | refused e hs | told hs _ | drained _ hs _ _ | closed exit hs | crashed hd => exact trivial
  | repaired r item hs => exact within_tryItem item
  | tried e e' t l status hs hstep =>
    exact within_follow t (Retry.within_step hstep (hw.of_trying hs))
  | took item queue hs _ _ => exact within_accept item
  | starved queue hs _ _ => exact hw
  | lost hd => exact hw

end Sender

/-! ### Weights -/

/-- One for a link that is open. -/
def Connection.openLink (c : Connection) : Nat :=
  match c.link with
  | some l => l.isOpen.toNat
  | none => 0

theorem Connection.openLink_le (c : Connection) : c.openLink ≤ 1 := by
  rw [openLink]
  split
  · exact Bool.toNat_le _
  · exact Nat.zero_le _

theorem Connection.lose_of_openLink {c : Connection} (h : c.openLink = 0) : c.lose = c := by
  rcases c with ⟨room, link, recorded⟩
  cases link with
  | none => rfl
  | some l =>
    have hl : l.isOpen = false := by simpa [openLink] using h
    simp only [lose, Option.map_some, ← hl]

theorem Connection.openLink_lose (c : Connection) : c.lose.openLink = 0 := by
  rcases c with ⟨room, link, recorded⟩
  cases link <;> rfl

namespace Sender

/-- What a message that a sender takes can cost at most, if so many attempts are allowed: a look, a
repair and all attempts. -/
def price (maxAttempts : Nat) : Nat := 6 * maxAttempts + 6

/-- What the rest of a sender's quota can cost at most. -/
def ahead (maxAttempts : Nat) (s : Sender) : Nat := (s.quota - s.processed) * price maxAttempts

/-- What is left to do for a sender at most. -/
def effort (maxAttempts : Nat) (s : Sender) : Nat :=
  match s.stage with
  | .dialing => s.ahead maxAttempts + 6
  | .waiting => s.ahead maxAttempts + 4
  | .repairing _ => s.ahead maxAttempts + 6 * maxAttempts + 6
  | .trying t => s.ahead maxAttempts + t.retry.effort maxAttempts + 4
  | .closing _ => 2
  | .left _ | .crashed => 0

/-- What is left to do for a sender, and one for a link that may close by itself. -/
def weight (maxAttempts : Nat) (s : Sender) : Nat := s.effort maxAttempts + s.connection.openLink

/-- An event that changes nothing: a look that finds neither an item nor a reason to leave, so that
it runs out, and the loss of a link that is not open. -/
def Idles (sh : Shared) (s : Sender) : SenderEvent → Prop
  | .looked => s.stage = .waiting ∧ hasReason sh = false
  | .lost => s.connection.openLink = 0
  | _ => False

variable {settings : RetrySettings} {sh : Shared} {s : Sender} {e : SenderEvent}
  {y : Shared × Sender} {K : Nat}

theorem effort_goOn_le (K : Nat) (s : Sender) : s.goOn.effort K ≤ s.ahead K + 4 := by
  rw [goOn]
  split
  · exact Nat.le_refl _
  · show 2 ≤ s.ahead K + 4
    omega

theorem effort_follow_le (K : Nat) (sh : Shared) (s : Sender) (t : Trial) (status : RetryStatus) :
    (follow t status sh s).2.effort K ≤ s.ahead K + status.effort K + 4 := by
  cases status with
  | going retry => exact Nat.le_refl _
  | ended o =>
    cases ho : o.isSuccess with
    | true =>
      simp only [follow, conclude, ho, if_true]
      exact effort_goOn_le K { s with succeeded := s.succeeded + 1 }
    | false =>
      simp only [follow, conclude, ho, Bool.false_eq_true, if_false]
      exact effort_goOn_le K { s with failed := s.failed + 1 }

theorem effort_tryItem_le (settings : RetrySettings) (sh : Shared) (s : Sender) (item : WorkItem) :
    (tryItem settings item sh s).2.effort settings.maxAttempts
      ≤ s.ahead settings.maxAttempts + 6 * settings.maxAttempts + 4 := by
  have hstart := Retry.effort_start_le settings (s.line sh)
  have hfollow : (tryItem settings item sh s).2.effort settings.maxAttempts
      ≤ s.ahead settings.maxAttempts
        + (Retry.start settings (s.line sh)).2.effort settings.maxAttempts + 4 :=
    effort_follow_le ..
  omega

/-- Taking a message on costs one message of the quota. -/
theorem effort_accept_le (settings : RetrySettings) (sh : Shared) (item : WorkItem)
    (h : s.processed < s.quota) :
    (accept settings item sh s).2.effort settings.maxAttempts + 2
      ≤ s.ahead settings.maxAttempts + 4 := by
  have hahead : s.ahead settings.maxAttempts
      = (s.quota - (s.processed + 1)) * price settings.maxAttempts
        + (6 * settings.maxAttempts + 6) := by
    obtain ⟨n, hn⟩ : ∃ n, s.quota - s.processed = n + 1 := ⟨s.quota - s.processed - 1, by omega⟩
    rw [ahead, hn, Nat.succ_mul, show s.quota - (s.processed + 1) = n by omega]
    rfl
  rw [hahead]
  simp only [accept]
  split
  · have htry := effort_tryItem_le settings sh { s with processed := s.processed + 1 } item
    simp only [ahead] at htry
    omega
  · show (s.quota - (s.processed + 1)) * price settings.maxAttempts + 6 * settings.maxAttempts + 6 + 2
      ≤ _
    omega

theorem effort_pos_of_not_done (h : s.isDone = false) : 2 ≤ s.effort K := by
  cases hs : s.stage with
  | left exit | crashed => simp [isDone, hs] at h
  | dialing | waiting | repairing item | trying t | closing exit =>
    simp only [effort, hs]
    omega

/-- An event that is said to change nothing does change nothing. -/
theorem eq_of_idles (h : s.step settings sh e = some y) (hi : s.Idles sh e) : y = (sh, s) := by
  cases e with
  | looked =>
    obtain ⟨hwait, hreason⟩ := hi
    simp only [hasReason, Bool.or_eq_false_iff, Bool.not_eq_false'] at hreason
    obtain ⟨⟨hstop, hempty⟩, hprod⟩ := hreason
    cases does_of_step h with
    | told hs hstop' => simp [hstop] at hstop'
    | took item queue hs _ hq =>
      have hcontent := (Queue.poll_item hq).1
      simp [(Queue.isEmpty_iff _).mp hempty] at hcontent
    | drained queue hs _ hq => simp [(Queue.poll_drained hq).2] at hprod
    | starved queue hs _ hq => rfl
    | tried e e' t l status hs hstep => simp [hwait] at hs
  | lost =>
    simp only [step] at h
    split at h
    · cases h
    · rw [← Option.some.inj h, Connection.lose_of_openLink hi]
  | dialed | replied | rested | interrupted | closed | crashed => exact hi.elim

/-- **Every other event lowers the weight of a sender.** -/
theorem weight_step (h : s.step settings sh e = some y) (hs : s.Sound) (hw : s.Within settings)
    (hi : ¬ s.Idles sh e) : y.2.weight settings.maxAttempts < s.weight settings.maxAttempts := by
  -- two units of effort pay for a link that an event leaves open
  have hpaid : y.2.effort settings.maxAttempts + 2 ≤ s.effort settings.maxAttempts →
      y.2.weight settings.maxAttempts < s.weight settings.maxAttempts := by
    intro heffort
    have hle := y.2.connection.openLink_le
    simp only [weight]
    omega
  cases does_of_step h with
  | connected u hst =>
    refine hpaid ?_
    have hgo := effort_goOn_le settings.maxAttempts
      (s.withLine sh ((s.line sh).settle (.ok u))).2
    have hstage : s.effort settings.maxAttempts = s.ahead settings.maxAttempts + 6 := by
      simp only [effort, hst]
    rw [hstage]
    exact Nat.add_le_add_right hgo 2
  | refused e hst => exact hpaid (effort_pos_of_not_done (by simp [isDone, hst]))
  | repaired r item hst =>
    refine hpaid ?_
    have htry := effort_tryItem_le settings (s.withLine sh ((s.line sh).settle r)).1
      (s.withLine sh ((s.line sh).settle r)).2 item
    have hstage : s.effort settings.maxAttempts
        = s.ahead settings.maxAttempts + 6 * settings.maxAttempts + 6 := by
      simp only [effort, hst]
    rw [hstage]
    exact Nat.add_le_add_right htry 2
  | tried e e' t l status hst hstep =>
    refine hpaid ?_
    have hfollow := effort_follow_le settings.maxAttempts (s.withLine sh l).1
      (s.withLine sh l).2 t status
    have hretry := Retry.effort_step hstep (hw.of_trying hst)
    have hahead : (s.withLine sh l).2.ahead settings.maxAttempts
        = s.ahead settings.maxAttempts := rfl
    have hstage : s.effort settings.maxAttempts
        = s.ahead settings.maxAttempts + t.retry.effort settings.maxAttempts + 4 := by
      simp only [effort, hst]
    simp only at hretry
    omega
  | told hst hstop =>
    refine hpaid ?_
    simp only [effort, hst, retire]
    omega
  | drained queue hst hstop hq =>
    refine hpaid ?_
    simp only [effort, hst, retire]
    omega
  | took item queue hst hstop hq =>
    refine hpaid ?_
    have hlt : s.processed < s.quota := by
      unfold Sound at hs
      rw [hst] at hs
      exact hs.2
    have haccept := effort_accept_le settings { sh with queue } item hlt
    rw [show s.effort settings.maxAttempts = s.ahead settings.maxAttempts + 4 by
      simp only [effort, hst]]
    exact haccept
  | starved queue hst hstop hq =>
    obtain ⟨hc, hp⟩ := Queue.poll_empty hq
    refine absurd ⟨hst, ?_⟩ hi
    simp [hasReason, hstop, hp, (Queue.isEmpty_iff _).mpr hc]
  | closed exit hst => exact hpaid (effort_pos_of_not_done (by simp [isDone, hst]))
  | lost hd =>
    have hopen : 0 < s.connection.openLink := Nat.pos_of_ne_zero hi
    simp only [weight, Connection.openLink_lose]
    exact Nat.lt_add_of_pos_right hopen
  | crashed hd => exact hpaid (effort_pos_of_not_done hd)

/-! ### Going on -/

/-- The moment at which the pause of a sender is over. -/
def deadline? (s : Sender) : Option Moment :=
  match s.stage with
  | .trying t =>
    match t.retry.stage with
    | .resting _ deadline => some deadline
    | _ => none
  | _ => none

/-- What happens to the message in a sender's hand happens to the sender. -/
def ofRetry : RetryEvent → SenderEvent
  | .dialed r => .dialed r
  | .replied r linkOpen => .replied r linkOpen
  | .rested => .rested
  | .interrupted => .interrupted

theorem step_ofRetry {t : Trial} (hs : s.stage = .trying t) (e : RetryEvent) :
    s.step settings sh (ofRetry e)
      = (t.retry.step settings sh.now sh.stopping (s.line sh) e).map fun x =>
          follow t x.2 (s.withLine sh x.1).1 (s.withLine sh x.1).2 := by
  cases e <;> simp only [ofRetry, step, hs]

/-- The event that a sender waits for, if the far side answers so. An opening, a message, a pause and
the closing of a connection come to an end; a sender at the queue looks again. -/
def awaits (a : FarSide) (s : Sender) : Option SenderEvent :=
  match s.stage with
  | .dialing | .repairing _ => some (.dialed a.opening)
  | .waiting => some .looked
  | .trying t => some (ofRetry (t.retry.awaits a))
  | .closing _ => some .closed
  | .left _ | .crashed => none

theorem not_idles_ofRetry (e : RetryEvent) : ¬ s.Idles sh (ofRetry e) := by
  cases e <;> exact fun h => h

/-- Only a look can be what a sender waits for and change nothing. -/
theorem not_idles_of_awaits {a : FarSide} (h : s.awaits a = some e)
    (hw : s.stage = .waiting → hasReason sh = true) : ¬ s.Idles sh e := by
  unfold awaits at h
  split at h
  · rw [← Option.some.inj h]; exact fun h => h
  · rw [← Option.some.inj h]; exact fun h => h
  · next hs =>
    rw [← Option.some.inj h]
    intro hi
    exact absurd (hw hs) (by simp [hi.2])
  · next t hs => rw [← Option.some.inj h]; exact not_idles_ofRetry _
  · rw [← Option.some.inj h]; exact fun h => h
  · cases h
  · cases h

/-- What a sender waits for can happen, once its pause is over. -/
theorem isSome_step_awaits (settings : RetrySettings) (sh : Shared) (hd : s.isDone = false)
    (hdue : ∀ deadline, s.deadline? = some deadline → deadline ≤ sh.now) (a : FarSide) :
    ∃ e, s.awaits a = some e ∧ (s.step settings sh e).isSome := by
  cases hs : s.stage with
  | left exit | crashed => simp [isDone, hs] at hd
  | dialing =>
    refine ⟨.dialed a.opening, by simp [awaits, hs], ?_⟩
    cases ho : a.opening <;> simp [step, hs]
  | repairing item => exact ⟨.dialed a.opening, by simp [awaits, hs], by simp [step, hs]⟩
  | waiting => exact ⟨.looked, by simp [awaits, hs], by simp [step, hs]⟩
  | closing exit => exact ⟨.closed, by simp [awaits, hs], by simp [step, hs]⟩
  | trying t =>
    refine ⟨ofRetry (t.retry.awaits a), by simp [awaits, hs], ?_⟩
    rw [step_ofRetry hs, Option.isSome_map]
    exact Retry.isSome_step_awaits settings sh.stopping (s.line sh)
      (fun e deadline hr => hdue deadline (by simp [deadline?, hs, hr])) a

/-- **A sender that is not done can go on**, whatever the far side answers: when its pause is over, if
it makes one, and when a look would find something, if it waits at the queue. -/
theorem exists_step (settings : RetrySettings) (hd : s.isDone = false)
    (hw : s.stage = .waiting → hasReason sh = true) :
    ∃ now, sh.now ≤ now ∧ ∀ a, ∃ e, s.awaits a = some e ∧ ¬ s.Idles { sh with now } e ∧
      (s.step settings { sh with now } e).isSome := by
  obtain ⟨now, hle, hdue⟩ : ∃ now, sh.now ≤ now ∧
      ∀ deadline, s.deadline? = some deadline → deadline ≤ now := by
    cases s.deadline? with
    | none => exact ⟨sh.now, Nat.le_refl _, nofun⟩
    | some deadline =>
      refine ⟨max sh.now deadline, Nat.le_max_left .., ?_⟩
      rintro _ ⟨⟩
      exact Nat.le_max_right sh.now deadline
  refine ⟨now, hle, fun a => ?_⟩
  obtain ⟨e, he, hy⟩ := isSome_step_awaits settings { sh with now } hd hdue a
  exact ⟨e, he, not_idles_of_awaits he hw, hy⟩

end Sender

end LoadRig
