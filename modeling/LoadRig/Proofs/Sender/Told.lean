import LoadRig.Proofs.Sender.Effort
/-!
# Senders that have been told to stop

Once the sign of a shutdown has been given, a sender takes no item any more. It may still have one
in its hand. `Sender.Fate` says what can have become of that item between two moments: it is still
in the hand, or it has been recorded, once, or the sender was brought down with it. A sender with
nothing in its hand records nothing.

The sign does not cut an attempt short, and it does not keep a sender from an attempt that it is
ready to begin: the first one, if the connection was to be repaired before, or the next one, if the
pause is over by the time the sender has its turn. Where the pause after a failed attempt takes any
time at all, an attempt leaves the sender with nothing that it is ready to begin.

The reason with which a sender will leave is settled when the sign is given, but for the end of its
first opening.

## Main definitions

* `LoadRig.Sender.inHand?` — the item in a sender's hand.
* `LoadRig.Sender.Fate` — what has become of it.
* `LoadRig.Sender.attempt?`, `LoadRig.Sender.begins?`, `LoadRig.Sender.ready?` — the attempt that a
  sender makes, begins, or is ready to begin.
* `LoadRig.Sender.exitWhenTold` — the reason with which a sender leaves that was told to stop.
* `LoadRig.Sender.windsUp` — the event by which it goes on.

## Main results

* `LoadRig.Sender.takes_of_stopping` — no item is taken.
* `LoadRig.Sender.fate_step`, `LoadRig.Sender.Fate.trans` — what becomes of the item in the hand.
* `LoadRig.Sender.attempts_step` — when an attempt begins.
* `LoadRig.Sender.exitWhenTold_step` — no event changes the reason.
* `LoadRig.Sender.exists_step_of_stopping` — a sender that has been told to stop goes on at once.
-/

namespace LoadRig

/-- How an opening has ended, if the event is the end of one. -/
def SenderEvent.opening? : SenderEvent → Option (Except ConnectError Unit)
  | .dialed r => some r
  | _ => none

namespace Sender

variable {settings : RetrySettings} {sh : Shared} {s s' s'' : Sender} {e : SenderEvent}
  {y : Shared × Sender} {ended ended' : List SampleRecord}

/-! ### The item in the hand -/

/-- The item in a sender's hand. -/
def inHand? (s : Sender) : Option WorkItem :=
  match s.stage with
  | .repairing item => some item
  | .trying t => some t.item
  | _ => none

/-- What has become of the item in a sender's hand, where `ended` are the records of the sender. -/
inductive Fate (s : Sender) : List SampleRecord → Sender → Prop
  /-- There was none. -/
  | idle {s' : Sender} (h : s.inHand? = none) (h' : s'.inHand? = none)
      (hc : s.stage = .crashed → s'.stage = .crashed) : Fate s [] s'
  /-- It is still there. -/
  | held {s' : Sender} (item : WorkItem) (h : s.inHand? = some item) (h' : s'.inHand? = some item) :
      Fate s [] s'
  /-- It was acknowledged or given up. -/
  | recorded {s' : Sender} (item : WorkItem) (r : SampleRecord) (h : s.inHand? = some item)
      (h' : s'.inHand? = none) (hk : r.kind = item.kind) (hr : r.room = s.room) : Fate s [r] s'
  /-- The sender was brought down with it. -/
  | dropped {s' : Sender} (item : WorkItem) (h : s.inHand? = some item)
      (h' : s'.stage = .crashed) : Fate s [] s'

theorem inHand?_of_crashed (h : s.stage = .crashed) : s.inHand? = none := by simp [inHand?, h]

theorem Fate.refl (s : Sender) : s.Fate [] s := by
  cases h : s.inHand? with
  | none => exact .idle h h fun hc => hc
  | some item => exact .held item h h

/-- With nothing in its hand a sender records nothing, and has nothing in its hand later on. -/
theorem Fate.of_none (h : s.Fate ended s') (hs : s.inHand? = none) :
    ended = [] ∧ s'.inHand? = none ∧ (s.stage = .crashed → s'.stage = .crashed) := by
  cases h with
  | idle h h' hc => exact ⟨rfl, h', hc⟩
  | held item h | recorded item r h | dropped item h =>
    rw [hs] at h
    cases h

theorem Fate.trans (h : s.Fate ended s') (h' : s'.Fate ended' s'') (hroom : s'.room = s.room) :
    s.Fate (ended ++ ended') s'' := by
  cases h with
  | idle hs hs' hc =>
    obtain ⟨rfl, hs'', hc'⟩ := h'.of_none hs'
    exact .idle hs hs'' fun h => hc' (hc h)
  | held item hs hs' =>
    cases h' with
    | idle h =>
      rw [hs'] at h
      cases h
    | held item' h hs'' =>
      rw [hs'] at h
      cases h
      exact .held item hs hs''
    | recorded item' r h hs'' hk hr =>
      rw [hs'] at h
      cases h
      exact .recorded item r hs hs'' hk (hr.trans hroom)
    | dropped item' h hs'' => exact .dropped item hs hs''
  | recorded item r hs hs' hk hr =>
    obtain ⟨rfl, hs'', -⟩ := h'.of_none hs'
    exact .recorded item r hs hs'' hk hr
  | dropped item hs hs' =>
    obtain ⟨rfl, -, hc⟩ := h'.of_none (inHand?_of_crashed hs')
    exact .dropped item hs (hc hs')

/-- **A sender that has left has recorded what it had in its hand**, once. -/
theorem Fate.kinds_of_left (h : s.Fate ended s') {exit : SenderExit} (hs' : s'.stage = .left exit) :
    ended.map (·.kind) = (s.inHand?.map (·.kind)).toList := by
  cases h with
  | idle hs => simp [hs]
  | held item hs h => simp [inHand?, hs'] at h
  | recorded item r hs h hk => simp [hs, hk]
  | dropped item hs h => simp [hs'] at h

theorem inHand?_goOn (s : Sender) : s.goOn.inHand? = none := by
  rw [goOn]
  split <;> rfl

/-- **No item is taken once the sign has been given.** -/
theorem takes_of_stopping (h : sh.stopping = true) : s.takes sh e = [] := by
  simp only [takes, h, if_true]
  split <;> rfl

/-- A message that ends is recorded, once. -/
theorem records_conclude (t : Trial) (o : SendOutcome) (sh : Shared) (s : Sender) :
    ∃ r : SampleRecord, (conclude t o sh s).1.pool.records = sh.pool.records ++ [r] ∧
      r.kind = t.item.kind ∧ r.room = s.room ∧ (conclude t o sh s).2.inHand? = none := by
  refine ⟨recordOf t (if o.isSuccess then .ok else .fail) sh s, ?_, rfl, rfl, inHand?_goOn _⟩
  simp [conclude, recordOf]

/-- A message that was in the hand of `s` goes on or ends. -/
theorem fate_follow (t : Trial) (status : RetryStatus) (sh : Shared) (h : s.inHand? = some t.item)
    (hroom : s'.room = s.room) :
    ∃ ended, (follow t status sh s').1.pool.records = sh.pool.records ++ ended ∧
      s.Fate ended (follow t status sh s').2 := by
  cases status with
  | going retry => exact ⟨[], (List.append_nil _).symm, .held t.item h rfl⟩
  | ended o =>
    obtain ⟨r, hrecords, hk, hr, hnone⟩ := records_conclude t o sh s'
    exact ⟨[r], hrecords, .recorded t.item r h hnone hk (hr.trans hroom)⟩

/-- **What becomes of the item in the hand** of a sender that has been told to stop. -/
theorem fate_step (h : s.step settings sh e = some y) (hstop : sh.stopping = true) :
    ∃ ended, y.1.pool.records = sh.pool.records ++ ended ∧ s.Fate ended y.2 := by
  have hnothing : sh.pool.records = sh.pool.records ++ [] := (List.append_nil _).symm
  cases does_of_step h with
  | connected u hs =>
    exact ⟨[], hnothing, .idle (by simp [inHand?, hs]) (inHand?_goOn _) (by simp [hs])⟩
  | refused e hs | closed exit hs =>
    exact ⟨[], hnothing, .idle (by simp [inHand?, hs]) rfl (by simp [hs])⟩
  | repaired r item hs => exact fate_follow _ _ _ (by simp [inHand?, hs]) rfl
  | tried e e' t l status hs hstep => exact fate_follow t status _ (by simp [inHand?, hs]) rfl
  | told hs => exact ⟨[], hnothing, .idle (by simp [inHand?, hs]) rfl (by simp [hs])⟩
  | took _ _ _ hnot | drained _ _ hnot | starved _ _ hnot => simp [hstop] at hnot
  | lost hd =>
    refine ⟨[], hnothing, ?_⟩
    cases hitem : s.inHand? with
    | none => exact .idle hitem hitem fun h => h
    | some item => exact .held item hitem hitem
  | crashed hd =>
    refine ⟨[], hnothing, ?_⟩
    cases hitem : s.inHand? with
    | none => exact .idle hitem rfl fun _ => rfl
    | some item => exact .dropped item hitem rfl

/-! ### Attempts -/

/-- The attempt that a sender makes, counted from zero for each message. -/
def attempt? (s : Sender) : Option Nat :=
  match s.stage with
  | .trying t =>
    match t.retry.stage with
    | .dialing | .sending => some t.retry.attempt
    | .resting _ _ => none
  | _ => none

/-- The attempt that a sender begins between two states. -/
def begins? (s s' : Sender) : Option Nat := if s'.attempt? = s.attempt? then none else s'.attempt?

/-- The attempt that a sender is ready to begin with an item in its hand: the first one, when the
repair of its connection has come to an end, or the next one, when its pause is over. -/
def ready? (now : Moment) (s : Sender) : Option Nat :=
  match s.stage with
  | .repairing _ => some 0
  | .trying t =>
    match t.retry.stage with
    | .resting _ deadline => if deadline ≤ now then some (t.retry.attempt + 1) else none
    | _ => none
  | _ => none

/-- Between two states of a sender an attempt is begun that the sender was ready for, and it is then
ready for none; or none is begun, and it is then ready for none or for the same. -/
inductive Attempts (settings : RetrySettings) (now : Moment) (s s' : Sender) : Prop
  | begun (n : Nat) (hb : s.begins? s' = some n) (hr : s.ready? now = some n)
      (hr' : s'.ready? now = none)
  | unbegun (hb : s.begins? s' = none)
      (hr' : 0 < settings.baseBackoff.toNanos →
        s'.ready? now = none ∨ s'.ready? now = s.ready? now)

theorem begins?_of_none (h : s'.attempt? = none) : s.begins? s' = none := by
  rw [begins?, h]
  split <;> rfl

theorem attempt?_goOn (s : Sender) : s.goOn.attempt? = none := by
  rw [goOn]
  split <;> rfl

theorem ready?_goOn (now : Moment) (s : Sender) : s.goOn.ready? now = none := by
  rw [goOn]
  split <;> rfl

/-- A sender that makes no attempt afterwards and is ready for none. -/
theorem attempts_of_none {now : Moment} (h : s'.attempt? = none) (hr : s'.ready? now = none) :
    Attempts settings now s s' :=
  .unbegun (begins?_of_none h) fun _ => .inl hr

theorem attempts_ended (t : Trial) (o : SendOutcome) (now : Moment) (sh : Shared) (s s' : Sender) :
    Attempts settings now s (follow t (.ended o) sh s').2 :=
  attempts_of_none (attempt?_goOn _) (ready?_goOn now _)

/-- The pause after an attempt that has failed is not over at once. -/
theorem attempts_fail (t : Trial) (now : Moment) (n : Nat) (e : AttemptError) (sh : Shared)
    (s s' : Sender) :
    Attempts settings now s (follow t (Retry.fail settings now n e) sh s').2 := by
  rw [Retry.fail]
  split
  · exact attempts_ended ..
  · refine .unbegun (begins?_of_none rfl) fun hpos => .inl (if_neg ?_)
    exact Nat.not_le.mpr (Nat.lt_add_of_pos_right (settings.toNanos_backoff_pos hpos n))

/-- An attempt begins that the sender was ready for. -/
theorem attempts_attempting (t : Trial) (l : Line) {n : Nat} (sh : Shared) (s' : Sender)
    {now : Moment} (hs : s.attempt? = none) (hr : s.ready? now = some n) :
    Attempts settings now s (follow t (Retry.attempting l n).2 sh s').2 := by
  have hbegins : ∀ {s'' : Sender}, s''.attempt? = some n → s.begins? s'' = some n := by
    intro s'' hs''
    rw [begins?, hs, hs'']
    rfl
  rw [Retry.attempting]
  split
  · exact .begun n (hbegins rfl) hr rfl
  · exact .begun n (hbegins rfl) hr rfl

theorem attempts_tryItem (item : WorkItem) (sh : Shared) (s' : Sender) {now : Moment}
    (hs : s.attempt? = none) (hr : s.ready? now = some 0) :
    Attempts settings now s (tryItem settings item sh s').2 := by
  have hstart : ∀ t sh' s'', Attempts settings now s
      (follow t (Retry.start settings (s'.line sh)).2 sh' s'').2 := by
    intro t sh' s''
    rw [Retry.start]
    split
    · exact attempts_ended ..
    · exact attempts_attempting t _ sh' s'' hs hr
  exact hstart ..

theorem attempts_tried {t : Trial} {e : RetryEvent} {x : Line × RetryStatus}
    (hs : s.stage = .trying t)
    (h : t.retry.step settings sh.now sh.stopping (s.line sh) e = some x) (sh' : Shared) :
    Attempts settings sh.now s (follow t x.2 sh' (s.withLine sh x.1).2).2 := by
  cases Retry.does_of_step h with
  | repaired u hr =>
    refine .unbegun (if_pos ?_) fun _ => .inl rfl
    simp [follow, attempt?, hs, hr]
  | refused e hr => exact attempts_fail ..
  | unanswered e linkOpen hr => exact attempts_fail ..
  | acked reply linkOpen hr => exact attempts_ended ..
  | interrupted e deadline hr hstop => exact attempts_ended ..
  | rested e deadline hr hd =>
    refine attempts_attempting t _ sh' _ ?_ ?_
    · simp [attempt?, hs, hr]
    · simp [ready?, hs, hr, hd]

/-- **When an attempt begins** after the sign has been given. -/
theorem attempts_step (h : s.step settings sh e = some y) (hstop : sh.stopping = true) :
    Attempts settings sh.now s y.2 := by
  cases does_of_step h with
  | connected u hs => exact attempts_of_none (attempt?_goOn _) (ready?_goOn _ _)
  | refused e hs | told hs | closed exit hs | crashed hd => exact attempts_of_none rfl rfl
  | took _ _ _ hnot | drained _ _ hnot | starved _ _ hnot => simp [hstop] at hnot
  | lost hd => exact .unbegun (if_pos rfl) fun _ => .inr rfl
  | repaired r item hs =>
    exact attempts_tryItem item _ _ (by simp [attempt?, hs]) (by simp [ready?, hs])
  | tried e e' t l status hs hstep => exact attempts_tried hs hstep _

/-! ### Reasons -/

/-- The reason of a sender whose work ends with what it has taken. -/
def lastReason (s : Sender) : SenderExit :=
  if s.processed = s.quota then .quotaReached else .shutdown

/-- The reason with which a sender leaves that was told to stop, where `opening` is how the first
opening that was under way then has ended. -/
def exitWhenTold (s : Sender) (opening : Option (Except ConnectError Unit)) : SenderExit :=
  match s.stage, opening with
  | .closing exit, _ | .left exit, _ => exit
  | .dialing, some (.error e) => .connectFailed e.message
  | _, _ => s.lastReason

/-- A sender that goes on to the queue, or has done its quota. -/
theorem exitWhenTold_goOn (h : s.processed ≤ s.quota)
    (opening : Option (Except ConnectError Unit)) :
    s.goOn.exitWhenTold opening = s.lastReason := by
  rw [goOn]
  split
  · rfl
  · exact (if_pos (by omega)).symm

theorem exitWhenTold_follow (t : Trial) (status : RetryStatus) (sh : Shared)
    (h : s.processed ≤ s.quota) (opening : Option (Except ConnectError Unit)) :
    (follow t status sh s).2.exitWhenTold opening = s.lastReason := by
  cases status with
  | going retry => rfl
  | ended o =>
    cases ho : o.isSuccess with
    | true =>
      simp only [follow, conclude, ho, if_true]
      exact exitWhenTold_goOn (s := { s with succeeded := s.succeeded + 1 }) h opening
    | false =>
      simp only [follow, conclude, ho, Bool.false_eq_true, if_false]
      exact exitWhenTold_goOn (s := { s with failed := s.failed + 1 }) h opening

theorem exitWhenTold_tryItem (item : WorkItem) (sh : Shared) (h : s.processed ≤ s.quota)
    (opening : Option (Except ConnectError Unit)) :
    (tryItem settings item sh s).2.exitWhenTold opening = s.lastReason :=
  exitWhenTold_follow (s := (s.withLine sh _).2) _ _ _ h opening

/-- **No event changes the reason with which a sender will leave**, unless the sender is brought
down. -/
theorem exitWhenTold_step (h : s.step settings sh e = some y) (hstop : sh.stopping = true)
    (hs : s.Sound) (hy : y.2.stage ≠ .crashed) (later : Option (Except ConnectError Unit)) :
    y.2.exitWhenTold later = s.exitWhenTold (e.opening?.or later) := by
  have hle := hs.processed_le
  unfold Sound at hs
  cases does_of_step h with
  | connected u hst =>
    calc ((s.withLine sh ((s.line sh).settle (.ok u))).2.goOn).exitWhenTold later
        = s.lastReason := exitWhenTold_goOn (s := (s.withLine sh _).2) hle later
      _ = s.exitWhenTold (some (.ok u)) := by simp only [exitWhenTold, hst]
  | refused e hst => simp [exitWhenTold, SenderEvent.opening?, hst, leave]
  | repaired r item hst =>
    calc (tryItem settings item (s.withLine sh ((s.line sh).settle r)).1
            (s.withLine sh ((s.line sh).settle r)).2).2.exitWhenTold later
        = s.lastReason := exitWhenTold_tryItem (s := (s.withLine sh _).2) item _ hle later
      _ = _ := by simp only [exitWhenTold, hst]
  | tried e e' t l status hst hstep =>
    calc (follow t status (s.withLine sh l).1 (s.withLine sh l).2).2.exitWhenTold later
        = s.lastReason := exitWhenTold_follow (s := (s.withLine sh l).2) t status _ hle later
      _ = _ := by simp only [exitWhenTold, hst]
  | told hst _ =>
    rw [hst] at hs
    have hne : s.processed ≠ s.quota := by omega
    simp [exitWhenTold, hst, retire, lastReason, hne]
  | took _ _ _ hnot | drained _ _ hnot | starved _ _ hnot => simp [hstop] at hnot
  | closed exit hst => simp [exitWhenTold, hst, leave]
  | lost hd => rfl
  | crashed hd => exact absurd rfl hy

/-! ### Going on to the end -/

theorem ne_crashed_of_isDone_eq_false (h : s.isDone = false) : s.stage ≠ .crashed := by
  intro hs
  simp [isDone, hs] at h

/-- A sender is brought down from outside only. -/
theorem ne_crashed_of_step (h : s.step settings sh e = some y) (he : e ≠ .crashed) :
    y.2.stage ≠ .crashed := by
  cases does_of_step h with
  | connected u hs => exact ne_crashed_of_isDone_eq_false (isDone_goOn _)
  | refused e hs | told hs | drained queue hs | closed exit hs => exact nofun
  | repaired r item hs => exact ne_crashed_of_isDone_eq_false (keepsOn_tryItem ..).isDone_eq
  | tried e e' t l status hs hstep =>
    exact ne_crashed_of_isDone_eq_false (keepsOn_follow ..).isDone_eq
  | took item queue hs => exact ne_crashed_of_isDone_eq_false (keepsOn_accept ..).isDone_eq
  | starved queue hs => exact ne_crashed_of_isDone_eq_false (isDone_eq_false_of_step h)
  | lost hd => exact ne_crashed_of_isDone_eq_false hd
  | crashed hd => exact absurd rfl he

/-- The event by which a sender goes on that has been told to stop: it does not wait for the end of
its pause. -/
def windsUp (a : FarSide) (s : Sender) : Option SenderEvent :=
  if s.deadline?.isSome then some .interrupted else s.awaits a

theorem ne_crashed_of_windsUp {a : FarSide} (h : s.windsUp a = some e) : e ≠ .crashed := by
  rintro rfl
  rw [windsUp] at h
  split at h
  · cases h
  · cases hs : s.stage with
    | dialing | repairing | waiting | closing | left | crashed => simp [awaits, hs] at h
    | trying t => cases hr : t.retry.stage <;> simp [awaits, Retry.awaits, ofRetry, hs, hr] at h

/-- **A sender that has been told to stop goes on at once**, whatever the far side answers. -/
theorem exists_step_of_stopping (settings : RetrySettings) (hd : s.isDone = false)
    (hstop : sh.stopping = true) (a : FarSide) :
    ∃ e, s.windsUp a = some e ∧ ¬ s.Idles sh e ∧ (s.step settings sh e).isSome := by
  cases hdeadline : s.deadline? with
  | some deadline =>
    refine ⟨.interrupted, by simp [windsUp, hdeadline], fun h => h, ?_⟩
    unfold deadline? at hdeadline
    split at hdeadline
    · next t hs =>
      split at hdeadline
      · next e d hr => simp [step, Retry.step, hs, hr, hstop]
      · cases hdeadline
    · cases hdeadline
  | none =>
    obtain ⟨e, he, hy⟩ := isSome_step_awaits settings sh hd (by simp [hdeadline]) a
    refine ⟨e, by simp [windsUp, hdeadline, he], ?_, hy⟩
    exact not_idles_of_awaits he fun _ => by simp [hasReason, hstop]

end Sender

end LoadRig
