import LoadRig.Proofs.Sender.Account
/-!
# What a sender writes, and how often it repairs its connection

The far side sees links that are opened and messages that are written to them. What it sees of a
sender is its messages in the order in which they were taken, each as often as it was tried on an
open link, and no message comes back once another one was written.

The repairs are bounded by what they are for. A message that is taken pays for one repair before it
is tried, and for one at the beginning of each attempt. If links close only while a message is in the
hand, the first message finds the link open that was opened at the beginning, so it pays for no
repair before it is tried and for none at its first attempt. `Sender.repairsLeft` is what a message
has paid for and not used yet.

## Main definitions

* `LoadRig.SenderCourse.Linked` — the links against the repairs.
* `LoadRig.SenderCourse.Tended` — what every move keeps of links and repairs.
* `LoadRig.SenderCourse.WritesInOrder` — what the far side sees.

## Main results

* `LoadRig.SenderCourse.linked_step` — every move keeps the number of links.
* `LoadRig.SenderCourse.tended_step` — every move keeps the bounds on the repairs.
* `LoadRig.SenderCourse.Chapters.exists_copies` — what was written, message by message.
* `LoadRig.SenderCourse.writesInOrder_of_steps` — what the far side sees of every course.
-/

namespace LoadRig

namespace Sender

variable {settings : RetrySettings} {sh : Shared} {s : Sender} {e : SenderEvent}
  {y : Shared × Sender}

/-! ### Takings -/

/-- A sender takes one message at a time. -/
theorem length_takes_le (sh : Shared) (s : Sender) (e : SenderEvent) :
    (s.takes sh e).length ≤ 1 := by
  unfold takes
  split
  · split
    · exact Nat.zero_le _
    · split
      · exact Nat.le_refl _
      · exact Nat.zero_le _
  · exact Nat.zero_le _

/-- A sender takes a message only at the queue. -/
theorem waiting_of_takes (h : s.takes sh e ≠ []) : s.stage = .waiting :=
  by_contra fun hs => h (takes_of_stage_ne hs)

/-- What a message can cost in repairs at most. -/
theorem repairsFor_le (K : Nat) (s : Sender) : s.repairsFor K ≤ K + 1 := by
  rw [repairsFor]
  split <;> omega

/-! ### Openings -/

theorem stage_goOn_ne_dialing (s : Sender) : s.goOn.stage ≠ .dialing := by
  rw [goOn]
  split <;> simp [retire]

theorem stage_follow_ne_dialing (t : Trial) (status : RetryStatus) (sh : Shared) (s : Sender) :
    (follow t status sh s).2.stage ≠ .dialing := by
  cases status with
  | going retry => simp [follow]
  | ended o => exact stage_goOn_ne_dialing _

theorem stage_tryItem_ne_dialing (item : WorkItem) (sh : Shared) (s : Sender) :
    (tryItem settings item sh s).2.stage ≠ .dialing :=
  fun h => stage_follow_ne_dialing _ _ _ _ h

theorem stage_accept_ne_dialing (item : WorkItem) (sh : Shared) (s : Sender) :
    (accept settings item sh s).2.stage ≠ .dialing := by
  simp only [accept]
  split
  · exact fun h => stage_tryItem_ne_dialing _ _ _ h
  · simp

/-- A sender opens its first connection only once. -/
theorem dialing_of_step (hy : s.step settings sh e = some y) (h : y.2.stage = .dialing) :
    s.stage = .dialing ∧ e.opens = false := by
  cases does_of_step hy with
  | connected => exact absurd h (stage_goOn_ne_dialing _)
  | repaired r item => exact absurd h (stage_tryItem_ne_dialing item _ _)
  | tried _ _ t l status => exact absurd h (stage_follow_ne_dialing t status _ _)
  | took item queue => exact absurd h (stage_accept_ne_dialing item _ s)
  | refused | told | drained | closed | crashed => cases h
  | starved | lost => exact ⟨h, rfl⟩

end Sender

namespace SenderCourse

variable {settings : RetrySettings} {c c' : SenderCourse} {m : SenderMove} {ms : List SenderMove}
  {e : SenderEvent} {y : Shared × Sender} {id quota room : Nat} {shared : Shared}

/-! ### Links -/

/-- The links of a sender: the first one, and one for each repair that succeeded. A sender that has no
link yet, or never got one, has taken nothing. -/
inductive Linked (c : SenderCourse) : Prop
  | unopened (hs : c.sender.stage = .dialing ∨ c.sender.isDone = true) (hl : c.links = 0)
      (hr : c.repaired = 0) (ht : c.taken = [])
  | opened (hs : c.sender.stage ≠ .dialing) (hl : c.links = c.repaired + 1)

theorem linked_met (hy : c.sender.step settings c.shared e = some y) (hc : c.Linked) :
    (c.met e y).Linked := by
  have hlinks := links_met c e y
  cases hc with
  | opened hs hl =>
    have hne : (c.sender.stage != .dialing) = true := by simpa using hs
    have hrepaired : (c.met e y).repaired = c.repaired + e.opens.toNat := by simp [met, hne]
    refine .opened (fun h => hs (Sender.dialing_of_step hy h).1) ?_
    omega
  | unopened hs hl hr ht =>
    have hs : c.sender.stage = .dialing :=
      hs.resolve_right (by simp [Sender.isDone_eq_false_of_step hy])
    have hrepaired : (c.met e y).repaired = 0 := by simp [met, hs, hr]
    obtain ⟨ended, he⟩ := Sender.entered_step hy
    have htaken : (c.met e y).taken = [] := by
      rw [taken_met e _ he.content, ht, Sender.takes_of_stage_ne (by simp [hs])]
      rfl
    cases Sender.does_of_step hy with
    | connected u _ =>
      refine .opened (Sender.stage_goOn_ne_dialing _) ?_
      rw [hlinks, hl, hrepaired]
      rfl
    | refused err _ => exact .unopened (.inr rfl) (hlinks.trans hl) hrepaired htaken
    | lost hd => exact .unopened (.inl hs) (hlinks.trans hl) hrepaired htaken
    | crashed hd => exact .unopened (.inr rfl) (hlinks.trans hl) hrepaired htaken
    | repaired _ _ hst | tried _ _ _ _ _ hst | told hst | took _ _ hst | drained _ hst
    | starved _ hst | closed _ hst => simp [hs] at hst

/-- **Every move keeps the number of links.** -/
theorem linked_step (h : c.step settings m = some c') (hc : c.Linked) : c'.Linked := by
  cases does_of_step h with
  | met m e y hm hy hw => exact linked_met hy hc
  | wrote hs hw =>
    cases hc with
    | unopened hs' hl hr ht => exact .unopened hs' ((links_write c).trans hl) hr ht
    | opened hs' hl => exact .opened hs' ((links_write c).trans hl)
  | others shared =>
    cases hc with
    | unopened hs hl hr ht => exact .unopened hs hl hr ht
    | opened hs hl => exact .opened hs hl

/-! ### Repairs -/

/-- What every move keeps of links and repairs. -/
structure Tended (settings : RetrySettings) (c : SenderCourse) : Prop where
  linked : c.Linked
  connections : c.counted.connections = c.links
  paid : c.counted.reconnections + c.sender.repairsLeft settings.maxAttempts
    ≤ c.taken.length * (settings.maxAttempts + 1)
  /-- Where nothing was lost out of turn, the first message finds the first link open. -/
  fresh : c.strays = 0 → c.taken = [] → c.sender.stage = .waiting →
    c.sender.connection.isOpen = true ∧ c.sender.connection.openLink = 1
  paid_of_steady : c.strays = 0 → 1 ≤ c.taken.length →
    c.counted.reconnections + c.sender.repairsLeft settings.maxAttempts
      ≤ (settings.maxAttempts - 1) + (c.taken.length - 1) * (settings.maxAttempts + 1)

theorem tended_start (settings : RetrySettings) (shared : Shared) (id quota room : Nat) :
    (start shared id quota room).Tended settings where
  linked := .unopened (.inl rfl) rfl rfl rfl
  connections := rfl
  paid := Nat.zero_le _
  fresh := nofun
  paid_of_steady := nofun

/-- A sender that waits for its first message has its first link, or has lost it out of turn. -/
theorem fresh_met (hc : c.Sound settings id quota room) (ht : c.Tended settings)
    (hy : c.sender.step settings c.shared e = some y) (hstrays : (c.met e y).strays = 0)
    (htaken : (c.met e y).taken = []) (hwaiting : y.2.stage = .waiting) :
    y.2.connection.isOpen = true ∧ y.2.connection.openLink = 1 := by
  have hnothing : c.strays = 0 ∧ c.taken = [] :=
    ⟨(Nat.add_eq_zero_iff.mp hstrays).1, (List.append_eq_nil_iff.mp htaken).1⟩
  have hprocessed : c.sender.processed = 0 := by rw [hc.processed_eq, hnothing.2, List.length_nil]
  have hsound := hc.sender
  unfold Sender.Sound at hsound
  cases Sender.does_of_step hy with
  | connected u hst =>
    simp only [Sender.goOn]
    split <;> exact ⟨rfl, rfl⟩
  | repaired r item hst =>
    rw [hst] at hsound
    exact absurd (hprocessed.symm.trans hsound.1) (by omega)
  | tried _ _ t l status hst =>
    rw [hst] at hsound
    exact absurd (hprocessed.symm.trans hsound.1) (by omega)
  | took item queue hst hstop hq =>
    have htakes : c.sender.takes c.shared .looked = [item] := by
      simp [Sender.takes, hst, hstop, hq]
    obtain ⟨ended, he⟩ := Sender.entered_step hy
    rw [taken_met _ _ he.content, htakes] at htaken
    simp at htaken
  | starved queue hst => exact ht.fresh hnothing.1 hnothing.2 hst
  | lost hd =>
    have hst : c.sender.stage = .waiting := hwaiting
    have hopen := (ht.fresh hnothing.1 hnothing.2 hst).2
    have hhand : c.sender.inHand? = none := by simp [Sender.inHand?, hst]
    have hstray : (c.met .lost (c.shared, { c.sender with
        connection := c.sender.connection.lose })).strays = c.strays + 1 := by
      simp [met, SenderEvent.isLoss, hhand, hopen]
    exact absurd (hstray.symm.trans hstrays) (Nat.succ_ne_zero _)
  | refused | told | drained | closed | crashed => cases hwaiting

theorem tended_met (hc : c.Sound settings id quota room) (ht : c.Tended settings)
    (hy : c.sender.step settings c.shared e = some y) : (c.met e y).Tended settings := by
  have hconnections := Sender.connections_step hy
  obtain ⟨hmono, hrepairs⟩ := Sender.repairs_step hy hc.within
  obtain ⟨ended, he⟩ := Sender.entered_step hy
  have htaken : (c.met e y).taken.length
      = c.taken.length + (c.sender.takes c.shared e).length := by
    rw [taken_met e _ he.content, List.length_append]
  have hcounted : (c.met e y).counted.reconnections = c.counted.reconnections
      + (y.1.counters.reconnections - c.shared.counters.reconnections) := rfl
  have hle := Sender.length_takes_le c.shared c.sender e
  refine {
    linked := linked_met hy ht.linked, connections := ?_, paid := ?_
    fresh := fresh_met hc ht hy, paid_of_steady := ?_ }
  · rw [links_met, ← ht.connections]
    show c.counted.connections + (y.1.counters.connections - c.shared.counters.connections) = _
    omega
  · have hpaid := ht.paid
    have hfor := Nat.mul_le_mul_left (c.sender.takes c.shared e).length
      (c.sender.repairsFor_le settings.maxAttempts)
    rw [htaken, Nat.add_mul]
    show (c.met e y).counted.reconnections + y.2.repairsLeft settings.maxAttempts ≤ _
    omega
  · intro hstrays hpos
    have hsteady : c.strays = 0 := (Nat.add_eq_zero_iff.mp hstrays).1
    have hpaid := ht.paid_of_steady hsteady
    show (c.met e y).counted.reconnections + y.2.repairsLeft settings.maxAttempts ≤ _
    cases hlen : (c.sender.takes c.shared e).length with
    | zero =>
      rw [hlen, Nat.zero_mul] at hrepairs
      rw [htaken, hlen, Nat.add_zero] at hpos ⊢
      have hpaid := hpaid hpos
      omega
    | succ n =>
      obtain rfl : n = 0 := by omega
      have htook : c.sender.takes c.shared e ≠ [] := fun h => by simp [h] at hlen
      have hwaiting := Sender.waiting_of_takes htook
      have hnone : c.sender.repairsLeft settings.maxAttempts = 0 := by
        simp only [Sender.repairsLeft, hwaiting]
      rw [hlen, Nat.one_mul, hnone] at hrepairs
      rw [htaken, hlen, Nat.add_sub_cancel]
      cases hfirst : c.taken.length with
      | zero =>
        -- the first message finds the connection open
        have hopen := (ht.fresh hsteady (List.length_eq_zero_iff.mp hfirst) hwaiting).1
        have hfor : c.sender.repairsFor settings.maxAttempts = settings.maxAttempts - 1 :=
          if_pos hopen
        have hnothing := ht.paid
        rw [hfirst, Nat.zero_mul] at hnothing
        omega
      | succ k =>
        have hpaid := hpaid (by omega)
        have hfor := c.sender.repairsFor_le settings.maxAttempts
        rw [hfirst, Nat.add_sub_cancel] at hpaid
        rw [Nat.add_mul]
        omega

/-- **Every move keeps the bounds on the repairs.** -/
theorem tended_step (h : c.step settings m = some c') (hc : c.Sound settings id quota room)
    (ht : c.Tended settings) : c'.Tended settings := by
  have hlinked := linked_step h ht.linked
  cases does_of_step h with
  | met m e y hm hy hw => exact tended_met hc ht hy
  | wrote hs hw =>
    exact { ht with linked := hlinked, connections := ht.connections.trans (links_write c).symm }
  | others shared => exact { ht with linked := hlinked }

theorem tended_of_steps (h : (start shared id quota room).steps settings ms = some c) :
    c.Tended settings :=
  (Moves.invariant (P := fun c => c.Sound settings id quota room ∧ c.Tended settings)
    (fun _ _ _ hs hstep => ⟨sound_step hstep hs.1, tended_step hstep hs.1 hs.2⟩) h
    ⟨sound_start settings shared id quota room, tended_start settings shared id quota room⟩).2

/-! ### What the far side sees -/

/-- What is written of some messages, each so many times in a row. -/
def copied (copies : List Nat) (items : List WorkItem) : List String :=
  (List.zipWith (fun n item => List.replicate n item.payload) copies items).flatten

/-- What the far side sees of a sender, given how often each message may be tried. -/
structure WritesInOrder (settings : RetrySettings) (c : SenderCourse) : Prop where
  processed : c.sender.processed = c.taken.length
  /-- The messages are written in the order in which they were taken, each some times in a row. -/
  writes : ∃ copies : List Nat, copies.length = c.taken.length ∧
    c.writes = copied copies c.taken ∧ (∀ n ∈ copies, n ≤ settings.maxAttempts) ∧
    ∀ (i : Nat) (r : SampleRecord), c.recorded[i]? = some r → r.outcome = .ok →
      ∃ n, copies[i]? = some n ∧ 1 ≤ n
  repairs : c.counted.reconnections ≤ c.sender.processed * (settings.maxAttempts + 1)
  /-- Where links close only while a message is in the hand, the first message costs less. -/
  repairs_of_steady : c.strays = 0 → 1 ≤ c.sender.processed →
    c.counted.reconnections
      ≤ (settings.maxAttempts - 1) + (c.sender.processed - 1) * (settings.maxAttempts + 1)
  connections : c.counted.connections = c.links
  links : 1 ≤ c.sender.processed → c.links = 1 + c.repaired

theorem copied_append (ns ns' : List Nat) (items items' : List WorkItem)
    (h : ns.length = items.length) :
    copied (ns ++ ns') (items ++ items') = copied ns items ++ copied ns' items' := by
  rw [copied, List.zipWith_append h, List.flatten_append]
  rfl

theorem copied_chapters (chapters : List Chapter) :
    copied (chapters.map (·.copies)) (chapters.map (·.item)) = chapters.flatMap (·.writes) := by
  rw [copied, List.zipWith_map, List.zipWith_self]
  rfl

theorem copied_hand (hand : Option WorkItem) (copies : Nat) :
    copied (hand.toList.map fun _ => copies) hand.toList
      = hand.toList.flatMap fun item => List.replicate copies item.payload := by
  cases hand <;> rfl

/-- What was written, message by message. -/
theorem Chapters.exists_copies {chapters : List Chapter} {hand : Option WorkItem} {copies : Nat}
    (hc : c.Chapters settings chapters hand copies) :
    ∃ ns : List Nat, ns.length = c.taken.length ∧ c.writes = copied ns c.taken ∧
      (∀ n ∈ ns, n ≤ settings.maxAttempts) ∧
      ∀ (i : Nat) (r : SampleRecord), c.recorded[i]? = some r → r.outcome = .ok →
        ∃ n, ns[i]? = some n ∧ 1 ≤ n := by
  refine ⟨chapters.map (·.copies) ++ hand.toList.map fun _ => copies, ?length, ?writes, ?within,
    ?recorded⟩
  case length => simp [hc.taken_eq]
  case writes =>
    rw [hc.taken_eq, copied_append _ _ _ _ (by simp), copied_chapters, copied_hand]
    exact hc.writes_eq
  case within =>
    intro n hn
    obtain hn | hn := List.mem_append.mp hn
    · obtain ⟨ch, hch, rfl⟩ := List.mem_map.mp hn
      exact (hc.regular ch hch).copies_le
    · obtain ⟨item, -, rfl⟩ := List.mem_map.mp hn
      exact hc.copies_le
  case recorded =>
    intro i r hr hok
    rw [hc.recorded_eq, List.getElem?_map] at hr
    obtain ⟨ch, hch, rfl⟩ := Option.map_eq_some_iff.mp hr
    refine ⟨ch.copies, ?_, (hc.regular ch (List.mem_of_getElem? hch)).copies_pos hok⟩
    rw [List.getElem?_append_left (by simpa using (List.getElem?_eq_some_iff.mp hch).1),
      List.getElem?_map, hch]
    rfl

/-- **What the far side sees of every course of a sender**, whatever the far side and the others do:
each message in its turn, and no more repairs than the messages pay for. -/
theorem writesInOrder_of_steps (settings : RetrySettings) (shared : Shared) (id quota room : Nat)
    (h : (start shared id quota room).steps settings ms = some c) :
    c.WritesInOrder settings := by
  have hsound := sound_of_steps h
  have htended := tended_of_steps h
  obtain ⟨chapters, hand, copies, hchapters⟩ := hsound.chapters
  refine {
    processed := hsound.processed_eq
    writes := hchapters.exists_copies
    repairs := ?_, repairs_of_steady := fun hstrays hpos => ?_
    connections := htended.connections, links := fun hpos => ?_ }
  · rw [hsound.processed_eq]
    exact (Nat.le_add_right _ _).trans htended.paid
  · rw [hsound.processed_eq] at hpos ⊢
    exact (Nat.le_add_right _ _).trans (htended.paid_of_steady hstrays hpos)
  · cases htended.linked with
    | opened hs hl => exact hl.trans (Nat.add_comm _ _)
    | unopened hs hl hr ht => simp [hsound.processed_eq, ht] at hpos

/-! ### A sender whose link breaks at every message -/

/-- A sender of two messages loses its link with the first, which fails for good because the repair
fails. For the second it repairs the connection three times before it can write it. -/
def mishaps : List SenderMove :=
  [.meets (.dialed (.ok ())), .meets .looked, .wrote, .meets (.replied (.error .closed) false),
    .meets .rested, .meets (.dialed (.error (.rejected "url" "busy"))), .meets .looked,
    .meets (.dialed (.error (.rejected "url" "busy"))),
    .meets (.dialed (.error (.rejected "url" "busy"))), .meets .rested, .meets (.dialed (.ok ())),
    .wrote, .meets (.replied (.ok "ok") true), .meets .closed]

/-- The sender after that. -/
def battered : SenderCourse :=
  ((start (around [hello, { hello with body := "again" }] false) 0 2 7).steps twice mishaps).get
    (by decide)

/-- It was never without a message in its hand when its link broke, and the four repairs are as many
as two messages can cost then. -/
theorem writesInOrder_mishaps :
    (start (around [hello, { hello with body := "again" }] false) 0 2 7).steps twice mishaps
      = some battered ∧
    battered.strays = 0 ∧ battered.sender.processed = 2 ∧ battered.links = 1 + 1 ∧
      battered.counted.reconnections = 4 ∧
      battered.counted.reconnections ≤ (2 - 1) + (2 - 1) * (2 + 1) ∧
      ∃ copies : List Nat, copies.length = 2 ∧ battered.writes = copied copies battered.taken := by
  have hsteps : (start (around [hello, { hello with body := "again" }] false) 0 2 7).steps twice
      mishaps = some battered := (Option.some_get _).symm
  have horder := writesInOrder_of_steps twice _ 0 2 7 hsteps
  have hprocessed : battered.sender.processed = 2 := by decide
  obtain ⟨copies, hlength, hwrites, -⟩ := horder.writes
  exact ⟨hsteps, by decide, hprocessed, horder.links (by decide), by decide,
    horder.repairs_of_steady (by decide) (by decide), copies, hlength, hwrites⟩

end SenderCourse

end LoadRig
