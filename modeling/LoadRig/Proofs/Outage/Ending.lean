import LoadRig.Proofs.Outage.Books
import LoadRig.Proofs.Sender.Account
/-!
# How an outage ends

The course of a sender that is alone with the stand-in, whatever the clock and the supply of the queue
do, comes out at fixed numbers. They follow from the books at its end: either every message was given
up, and each has met as many failures as attempts are allowed, or one of them got through, and then
all failures were met before it did.

It does come to its end. A move of the sender or the stand-in lowers what is left to do, and as long
as the sender is not done there is such a move, after a message was put in or a pause has gone by
where one of these is needed.

## Main definitions

* `LoadRig.Outage.Sound` — what every move keeps.
* `LoadRig.Outage.left` — what is left to do.
* `LoadRig.Outage.ComesTo` — the numbers at the end.

## Main results

* `LoadRig.Outage.left_step` — every move of the sender or the stand-in lowers what is left to do.
* `LoadRig.Outage.goesOn` — a sender that is not done can go on.
* `LoadRig.Outage.comesTo_of_steps` — every course comes out at these numbers.
-/

namespace LoadRig.Outage

variable {settings : RetrySettings} {c c' : Outage} {m : OutageMove} {ms : List OutageMove}
  {N D sends : Nat}

/-! ### What is kept -/

/-- What every move keeps of an outage of `D` failures and `N` messages, before which `sends` messages
were written. -/
structure Sound (settings : RetrySettings) (N D sends : Nat) (c : Outage) : Prop where
  order : c.Orderly settings N
  books : c.Books settings.maxAttempts D sends

theorem sound_start (epoch : Int) (capacity id room : Nat) {mock : MockService}
    (hm : mock.Reliable settings.ackTimeout) :
    (start epoch capacity id N room mock).Sound settings N mock.droppedAcks mock.sends where
  order := orderly_start settings epoch capacity id room hm
  books := books_start settings.maxAttempts epoch capacity id N room mock

theorem sound_step (hK : 1 ≤ settings.maxAttempts) (h : c.step settings m = some c')
    (hc : c.Sound settings N D sends) : c'.Sound settings N D sends where
  order := orderly_step h hc.order
  books := books_step hK h hc.order hc.books

/-! ### Going on -/

/-- One outage after another by some move. -/
def Leads (settings : RetrySettings) (c c' : Outage) : Prop := ∃ m, c.step settings m = some c'

/-- What is left to do for the sender, and to write. -/
def left (K : Nat) (c : Outage) : Nat := 2 * c.sender.weight K + c.answer.isNone.toNat

/-- What a sender does lowers what is left to do. -/
theorem left_lt {e : SenderEvent} {y : Shared × Sender} (ho : c.Orderly settings N)
    (hy : c.sender.step settings c.shared e = some y) (hi : ¬ c.sender.Idles c.shared e)
    (h : c'.sender = y.2) : c'.left settings.maxAttempts < c.left settings.maxAttempts := by
  have hlt := Sender.weight_step hy ho.sender ho.within hi
  have hle := Bool.toNat_le c'.answer.isNone
  rw [left, left, h]
  omega

/-- **Every move of the sender or the stand-in lowers what is left to do.** -/
theorem left_step (h : c.step settings m = some c') (ho : c.Orderly settings N) :
    c'.left settings.maxAttempts < c.left settings.maxAttempts ∨
      c'.sender = c.sender ∧ c'.mock = c.mock ∧ c'.answer = c.answer := by
  cases does_of_step ho.mock h with
  | opened y hy | rested y hy | closed y hy => exact .inl (left_lt ho hy (fun h => h) rfl)
  | answered e y ha hy => exact .inl (left_lt ho hy (fun h => h) rfl)
  | looked y hy =>
    by_cases hi : c.sender.Idles c.shared .looked
    · rw [Sender.eq_of_idles hy hi]
      exact .inr ⟨rfl, rfl, rfl⟩
    · exact .inl (left_lt ho hy hi rfl)
  | wrote hs ha =>
    left
    simp [left, ha]
  | supplied | ended | waited => exact .inr ⟨rfl, rfl, rfl⟩

/-- An outage can be brought to another one, in which less is left to do. -/
def GoesOn (settings : RetrySettings) (c : Outage) : Prop :=
  ∃ d, Relation.ReflTransGen (Leads settings) c d ∧
    d.left settings.maxAttempts < c.left settings.maxAttempts

theorem goesOn_of_event {e : SenderEvent} (ho : c.Orderly settings N)
    (hsome : (c.sender.step settings c.shared e).isSome) (hi : ¬ c.sender.Idles c.shared e)
    (h : ∀ y, c.sender.step settings c.shared e = some y →
      ∃ c', c.step settings m = some c' ∧ c'.sender = y.2) :
    c.GoesOn settings := by
  obtain ⟨y, hy⟩ := Option.isSome_iff_exists.mp hsome
  obtain ⟨c', hc', hsender⟩ := h y hy
  exact ⟨c', .single ⟨m, hc'⟩, left_lt ho hy hi hsender⟩

theorem goesOn_of_opens (ho : c.Orderly settings N)
    (hsome : (c.sender.step settings c.shared (.dialed (.ok ()))).isSome) :
    c.GoesOn settings := by
  refine goesOn_of_event (m := .opens) (e := .dialed (.ok ())) ho hsome (fun h => h)
    fun y hy => ?_
  refine ⟨{ c with shared := y.1, sender := y.2, mock := c.mock.welcome }, ?_, rfl⟩
  simp [step, ho.mock.handshake, verdict, meet, hy]

theorem goesOn_of_looks (ho : c.Orderly settings N) (hs : c.sender.stage = .waiting)
    (hreason : Sender.hasReason c.shared = true) :
    c.GoesOn settings := by
  refine goesOn_of_event (m := .looks) (e := .looked) ho (by simp [Sender.step, hs])
    (fun hi => absurd (hi.2.symm.trans hreason) Bool.false_ne_true) fun y hy => ?_
  exact ⟨{ c with shared := y.1, sender := y.2 }, by simp [step, meet, hy], rfl⟩

/-- A sender that is not done can go on, when it gets a message, where it waits for one, and when its
pause is over, where it makes one. -/
theorem goesOn (ho : c.Orderly settings N) (hd : c.sender.isDone = false) :
    c.GoesOn settings := by
  cases hs : c.sender.stage with
  | left | crashed => simp [Sender.isDone, hs] at hd
  | dialing | repairing => exact goesOn_of_opens ho (by simp [Sender.step, hs])
  | closing exit =>
    refine goesOn_of_event (m := .closes) (e := .closed) ho (by simp [Sender.step, hs])
      (fun h => h) fun y hy => ?_
    exact ⟨{ c with shared := y.1, sender := y.2 }, by simp [step, meet, hy], rfl⟩
  | waiting =>
    cases hreason : Sender.hasReason c.shared with
    | true => exact goesOn_of_looks ho hs hreason
    | false =>
      -- the producer puts a message in
      simp only [Sender.hasReason, Bool.or_eq_false_iff, Bool.not_eq_false'] at hreason
      have hsize : c.shared.queue.size = 0 := by simpa [Queue.isEmpty] using hreason.1.2
      have hattended := ho.attended hd
      have hroom := ho.room
      have hput : c.shared.queue.put SenderCourse.hello
          = (.done, c.shared.queue.push SenderCourse.hello) := by
        rw [Queue.put, if_neg (by omega), if_neg (by omega)]
      have hsupplies : c.step settings (.supplies SenderCourse.hello) = some { c with
          shared := { c.shared with queue := c.shared.queue.push SenderCourse.hello } } := by
        simp [step, hreason.2, hput]
      obtain ⟨d, hleads, hlt⟩ := goesOn_of_looks (orderly_step hsupplies ho) hs
        (by simp [Sender.hasReason, Queue.isEmpty, Queue.push])
      exact ⟨d, .head ⟨_, hsupplies⟩ hleads, hlt⟩
  | trying t =>
    cases ht : t.retry.stage with
    | dialing => exact goesOn_of_opens ho (by simp [Sender.step, hs, Retry.step, ht])
    | sending =>
      have hsending : c.sender.isSending = true := by simp [Sender.isSending, Retry.isSending, hs, ht]
      cases ha : c.answer with
      | none =>
        refine ⟨{ c with
          mock := (c.mock.send c.sender.connection.isOpen settings.ackTimeout).2
          answer := some (c.mock.send c.sender.connection.isOpen settings.ackTimeout).1 },
          .single ⟨.writes, by simp [step, hsending, ha]⟩, ?_⟩
        simp [left, ha]
      | some e =>
        refine goesOn_of_event (m := .answers) (e := .replied e.answer e.linkOpen) ho ?_
          (fun h => h) fun y hy => ?_
        · cases he : e.answer <;> simp [Sender.step, hs, Retry.step, ht]
        · exact ⟨{ shared := y.1, sender := y.2, mock := c.mock },
            by simp [step, meet, ha, hy], rfl⟩
    | resting err deadline =>
      have hlater : c.step settings (.later (max c.shared.now deadline))
          = some { c with shared := { c.shared with now := max c.shared.now deadline } } := by
        simp [step]
      obtain ⟨d, hleads, hlt⟩ := goesOn_of_event (m := .rests) (e := .rested)
        (orderly_step hlater ho) (by simp [Sender.step, hs, Retry.step, ht]) (fun h => h)
        fun y hy =>
          ⟨{ c with shared := y.1, sender := y.2 }, by simp only [step, meet, hy]; rfl, rfl⟩
      exact ⟨d, .head ⟨_, hlater⟩ hleads, hlt⟩

/-! ### The end -/

/-- The numbers at the end: `N` messages, `K` attempts at each, and `D` failures. -/
structure ComesTo (K N D sends : Nat) (c : Outage) (r : SenderReport) : Prop where
  exit : r.exit = .quotaReached
  processed : r.processed = N
  failed : r.failed = min N (D / K)
  succeeded : r.succeeded = N - r.failed
  sends_eq : c.mock.sends = sends + (r.succeeded + min D (N * K))
  reconnections : c.shared.counters.reconnections = min D (N * K) - if N * K ≤ D then 1 else 0
  connections : c.shared.counters.connections = c.shared.counters.reconnections + 1

theorem Sound.comesTo (hK : 1 ≤ settings.maxAttempts) (hN : 1 ≤ N)
    (hc : c.Sound settings N D sends) {r : SenderReport} (hr : c.sender.report? = some r) :
    c.ComesTo settings.maxAttempts N D sends r := by
  obtain ⟨ho, hb⟩ := hc
  obtain ⟨hprocessed, hsucceeded, hfailed, -, -, -, hs⟩ := Sender.report?_eq hr
  have hexit := ho.exits r.exit (by simp [Sender.exit?, hs])
  rw [hexit] at hs
  obtain ⟨hconcluded, hfits⟩ := ho.sender.of_left hs
  have hall : c.sender.processed = N := hfits.trans ho.quota_eq
  rw [Sender.concluded, hall] at hconcluded
  have hnone := hb.answer_eq_none (by simp [Sender.isSending, hs])
  have hspent := hb.spent
  have hsends := hb.sends_eq
  have hrepairs := hb.repairs
  have hconnections := hb.connections
  simp only [Sender.tries, dropped, acked, owed, Sender.opening, hs, hnone, Nat.add_zero]
    at hspent hsends hrepairs hconnections
  generalize settings.maxAttempts = K at hK hb hspent ⊢
  obtain ⟨hgiven, hsent, hrepaired⟩ : c.sender.failed = min N (D / K) ∧
      c.mock.sends = sends + (c.sender.succeeded + min D (N * K)) ∧
      c.shared.counters.reconnections = min D (N * K) - if N * K ≤ D then 1 else 0 := by
    rcases Nat.eq_zero_or_pos c.sender.succeeded with hzero | hpos
    · -- every message was given up
      have hfailed : c.sender.failed = N := by omega
      have hspent := hspent hzero
      rw [hfailed] at hspent
      have hle : N * K ≤ D := by omega
      have hdiv : N ≤ D / K := (Nat.le_div_iff_mul_le hK).mpr hle
      rw [if_pos ⟨hzero, by omega⟩] at hrepairs
      rw [Nat.min_eq_left hdiv, Nat.min_eq_right hle, if_pos hle]
      exact ⟨hfailed, by omega, by omega⟩
    · -- the outage was over before
      obtain ⟨hhealed, hfailed, -⟩ := hb.healed hpos
      have hdiv : D / K < N := by omega
      have hlt : D < N * K := (Nat.div_lt_iff_lt_mul hK).mp hdiv
      rw [if_neg (fun h => absurd h.1 (Nat.ne_of_gt hpos))] at hrepairs
      rw [Nat.min_eq_right hdiv.le, Nat.min_eq_left hlt.le, if_neg (Nat.not_le.mpr hlt)]
      exact ⟨hfailed, by omega, by omega⟩
  exact {
    exit := hexit, processed := hprocessed.trans hall, failed := hfailed.trans hgiven
    succeeded := by rw [hsucceeded, hfailed, hconcluded, Nat.add_sub_cancel]
    sends_eq := by rw [hsucceeded, hsent]
    reconnections := hrepaired, connections := hconnections }

theorem sound_of_leads {d : Outage} (hK : 1 ≤ settings.maxAttempts)
    (h : Relation.ReflTransGen (Leads settings) c d) (hc : c.Sound settings N D sends) :
    d.Sound settings N D sends := by
  induction h with
  | refl => exact hc
  | tail hleads hlast ih =>
    obtain ⟨m, hm⟩ := hlast
    exact sound_step hK hm ih

/-- The sender of an outage can be brought to its report. -/
theorem Sound.exists_report (hK : 1 ≤ settings.maxAttempts) (hc : c.Sound settings N D sends) :
    ∃ d, Relation.ReflTransGen (Leads settings) c d ∧ d.Sound settings N D sends ∧
      ∃ r, d.sender.report? = some r := by
  refine exists_of_rank (left settings.maxAttempts) _ _ (fun c hc => ?_) hc
  cases hd : c.sender.isDone with
  | true =>
    left
    cases hs : c.sender.stage with
    | left exit => exact ⟨_, by rw [Sender.report?, hs]⟩
    | crashed => exact absurd hs hc.order.standing
    | dialing | waiting | repairing | trying | closing => simp [Sender.isDone, hs] at hd
  | false =>
    obtain ⟨d, hleads, hlt⟩ := goesOn hc.order hd
    exact .inr ⟨d, hleads, sound_of_leads hK hleads hc, hlt⟩

/-- **Every course of an outage comes out at the same numbers.** A sender that may take `N` messages,
with `K` attempts at each, is alone with a stand-in that closes its link instead of the first `D`
acknowledgements. Whenever it has left, it has given up `min N (D / K)` messages and has got the
others acknowledged. It can be brought to this end from every point of its course, and every move on
the way brings it nearer, apart from those of the clock and the producer and a look at an empty
queue. -/
theorem comesTo_of_steps {settings : RetrySettings} {mock : MockService} {N : Nat}
    (hK : 1 ≤ settings.maxAttempts) (hN : 1 ≤ N) (hm : mock.Reliable settings.ackTimeout)
    (epoch : Int) (capacity id room : Nat)
    (h : (start epoch capacity id N room mock).steps settings ms = some c) :
    (∀ r, c.sender.report? = some r →
      c.ComesTo settings.maxAttempts N mock.droppedAcks mock.sends r) ∧
    (∃ d r, Relation.ReflTransGen (Leads settings) c d ∧ d.sender.report? = some r ∧
      d.ComesTo settings.maxAttempts N mock.droppedAcks mock.sends r) ∧
    ∀ m d, c.step settings m = some d →
      d.left settings.maxAttempts < c.left settings.maxAttempts ∨
      d.sender = c.sender ∧ d.mock = c.mock ∧ d.answer = c.answer := by
  have hc : c.Sound settings N mock.droppedAcks mock.sends :=
    Moves.invariant (fun _ _ _ hs hstep => sound_step hK hstep hs) h
      (sound_start epoch capacity id room hm)
  refine ⟨fun r hr => hc.comesTo hK hN hr, ?_, fun m d hstep => left_step hstep hc.order⟩
  obtain ⟨d, hleads, hd, r, hr⟩ := hc.exists_report hK
  exact ⟨d, r, hleads, hr, hd.comesTo hK hN hr⟩

/-! ### An outage of three failures -/

/-- A stand-in that closes its link instead of the first three acknowledgements. -/
def flaky : MockService := { droppedAcks := 3 }

/-- A sender of two messages with two attempts at each. The first message is given up, and the second
one gets through at its second attempt. -/
def spell : List OutageMove :=
  [.supplies SenderCourse.hello, .supplies { SenderCourse.hello with body := "again" }, .ends, .opens,
    .looks, .writes, .answers, .rests, .opens, .writes, .answers,
    .looks, .opens, .writes, .answers, .rests, .opens, .writes, .answers, .closes]

/-- The sender after that. -/
def weathered : Outage :=
  ((start 0 4 0 2 7 flaky).steps SenderCourse.twice spell).get (by decide)

/-- One of two messages failed, and each of the three failures was repaired. -/
theorem comesTo_spell : (start 0 4 0 2 7 flaky).steps SenderCourse.twice spell = some weathered ∧
    ∃ r, weathered.sender.report? = some r ∧ r.failed = min 2 (3 / 2) ∧ r.succeeded = 1 ∧
      weathered.mock.sends = 4 ∧ weathered.shared.counters.reconnections = 3 ∧
      weathered.shared.counters.connections = 4 := by
  have hsteps : (start 0 4 0 2 7 flaky).steps SenderCourse.twice spell = some weathered :=
    (Option.some_get _).symm
  have hreport : weathered.sender.report? = some
      { id := 0, room := 7, quota := 2, processed := 2, succeeded := 1, failed := 1,
        exit := .quotaReached } := by decide
  have hends := (comesTo_of_steps (by decide) (by decide) ⟨fun _ => rfl, rfl, rfl, by decide⟩
    0 4 0 7 hsteps).1 _ hreport
  exact ⟨hsteps, _, hreport, hends.failed, rfl, hends.sends_eq, hends.reconnections,
    hends.connections.trans (congrArg (· + 1) hends.reconnections)⟩

end LoadRig.Outage
