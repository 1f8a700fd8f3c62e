import LoadRig.Proofs.Sender.Course
/-!
# The report of a sender

A sender that has left reports how many messages it processed, how they ended and why it left. Its
report is measured here by what a bystander saw: what the queue lacks, what the records and the
counters have more, and what was true when the sender got its reason. Whatever the others do
meanwhile, whatever the far side does, and whenever the sign of a shutdown is given, the two agree.

A sender gets its reason by one move. `SenderCourse.Decides` lists the moves that give one, with what
is true then; from that move on nothing is taken any more.

## Main definitions

* `LoadRig.SenderCourse.Decides` — a move by which a sender gets its reason.
* `LoadRig.SenderCourse.Accounted` — a report is what was seen.

## Main results

* `LoadRig.SenderCourse.decides_of_step` — a sender gets its reason in no other way.
* `LoadRig.SenderCourse.idle_step` — a look that finds nothing changes nothing.
* `LoadRig.SenderCourse.accounted_of_steps` — the report of every course.
-/

namespace LoadRig.SenderCourse

variable {settings : RetrySettings} {c c' : SenderCourse} {m : SenderMove} {ms : List SenderMove}
  {e : SenderEvent} {y : Shared × Sender} {exit : SenderExit} {id quota room : Nat}
  {shared : Shared}

/-! ### Reasons -/

/-- A move by which a sender gets its reason to leave, and what is true then. -/
inductive Decides (c : SenderCourse) : SenderMove → SenderExit → Prop
  /-- The first connection could not be opened. -/
  | failed (err : ConnectError) (hs : c.sender.stage = .dialing) :
      Decides c (.meets (.dialed (.error err))) (.connectFailed err.message)
  /-- The sender, which waits at the queue, sees the sign. -/
  | told (hs : c.sender.stage = .waiting) (hstop : c.shared.stopping = true) :
      Decides c (.meets .looked) .shutdown
  /-- The sender, which waits at the queue, finds that nothing is there and nothing will come. -/
  | drained (hs : c.sender.stage = .waiting) (hq : c.shared.queue.toList = [])
      (hp : c.shared.queue.producer = false) : Decides c (.meets .looked) .queueDrained
  /-- The quota is done. -/
  | done (m : SenderMove) : Decides c m .quotaReached

/-- **A sender gets a reason to leave in no other way**, and it takes nothing then, unless its quota is
done by that. -/
theorem decides_of_step (h : c.step settings m = some c') (hx : c'.sender.exit? = some exit)
    (hnot : c.sender.exit? ≠ some exit) :
    Decides c m exit ∧ (exit ≠ .quotaReached → c'.taken = c.taken) := by
  cases does_of_step h with
  | others shared => exact absurd hx hnot
  | wrote hs hw => exact absurd hx hnot
  | met m e y hm hy hack =>
    have hevent : ∀ e', e = e' → e'.isReply = false → m = .meets e' := by
      rintro e' rfl hreply
      rcases hm with rfl | ⟨-, rfl⟩
      · rfl
      · cases hreply
    -- an event that leaves the content of the queue as it is takes nothing
    have hkept : y.1.queue.toList = c.shared.queue.toList → (c.met e y).taken = c.taken :=
      fun hsame => (taken_met e [] hsame.symm).trans (List.append_nil _)
    cases Sender.does_of_step hy with
    | connected u hs =>
      rw [Sender.exit?_goOn hx]
      exact ⟨.done m, fun hne => absurd rfl hne⟩
    | refused err hs =>
      rw [hevent _ rfl rfl, ← Option.some.inj hx]
      exact ⟨.failed err hs, fun _ => hkept rfl⟩
    | repaired r item hs =>
      rw [(Sender.keepsOn_tryItem settings _ _ item).reason exit hx]
      exact ⟨.done m, fun hne => absurd rfl hne⟩
    | tried e e' t l status hs hstep =>
      rw [(Sender.keepsOn_follow _ _ t status).reason exit hx]
      exact ⟨.done m, fun hne => absurd rfl hne⟩
    | told hs hstop =>
      rw [hevent _ rfl rfl, ← Option.some.inj hx]
      exact ⟨.told hs hstop, fun _ => hkept rfl⟩
    | took item queue hs hstop hq =>
      rw [(Sender.keepsOn_accept settings _ _ item).reason exit hx]
      exact ⟨.done m, fun hne => absurd rfl hne⟩
    | drained queue hs hstop hq =>
      obtain ⟨hempty, hp⟩ := Queue.poll_drained hq
      rw [hevent _ rfl rfl, ← Option.some.inj hx]
      exact ⟨.drained hs hempty hp, fun _ => hkept rfl⟩
    | starved queue hs hstop hq => exact absurd hx hnot
    | closed exit' hs =>
      refine absurd ?_ hnot
      rw [Sender.exit?, hs]
      exact hx
    | lost hd => exact absurd hx hnot
    | crashed hd => cases hx

/-- A sender that leaves, has left or was brought down does not come back to the queue. -/
def Leaves (c : SenderCourse) : Prop :=
  ∃ exit, c.sender.stage = .closing exit ∨ c.sender.stage = .left exit ∨ c.sender.stage = .crashed

/-- What a sender takes from the queue is taken while it waits there. -/
theorem taken_step (h : c.step settings m = some c') :
    c'.taken = c.taken ∨ c.sender.stage = .waiting := by
  cases does_of_step h with
  | others shared => exact .inl rfl
  | wrote hs hw => exact .inl rfl
  | met m e y hm hy hack =>
    by_cases hs : c.sender.stage = .waiting
    · exact .inr hs
    · obtain ⟨ended, he⟩ := Sender.entered_step hy
      rw [taken_met e _ he.content, Sender.takes_of_stage_ne hs]
      exact .inl (List.append_nil _)

theorem leaves_step (h : c.step settings m = some c') (hc : c.Leaves) :
    c'.Leaves ∧ c'.taken = c.taken := by
  obtain ⟨exit, hexit⟩ := hc
  refine ⟨?_, (taken_step h).resolve_right fun hs => by simp [hs] at hexit⟩
  cases does_of_step h with
  | others shared => exact ⟨exit, hexit⟩
  | wrote hs hw => exact ⟨exit, hexit⟩
  | met m e y hm hy hack =>
    cases Sender.does_of_step hy with
    | connected _ hs | refused _ hs | repaired _ _ hs | tried _ _ _ _ _ hs | told hs | took _ _ hs
    | drained _ hs | starved _ hs => simp [hs] at hexit
    | closed exit' hs => exact ⟨exit', .inr (.inl rfl)⟩
    | lost hd => exact ⟨exit, hexit⟩
    | crashed hd => exact ⟨exit, .inr (.inr rfl)⟩

theorem leaves_steps {taken : List WorkItem} (h : c.steps settings ms = some c') (hc : c.Leaves)
    (ht : c.taken = taken) : c'.taken = taken :=
  (Moves.invariant (P := fun c => c.Leaves ∧ c.taken = taken)
    (fun _ _ _ hs hstep => (leaves_step hstep hs.1).imp_right fun heq => heq.trans hs.2)
    h ⟨hc, ht⟩).2

theorem leaves_of_exit? (h : c.sender.exit? = some exit) : c.Leaves := by
  unfold Sender.exit? at h
  split at h
  · next exit' hs => exact ⟨exit', .inl hs⟩
  · next exit' hs => exact ⟨exit', .inr (.inl hs)⟩
  · cases h

/-- **The moment at which a sender got its reason**: everything that it took it had taken by then,
unless the reason is that its quota was done. -/
theorem exists_decision (h : (start shared id quota room).steps settings ms = some c)
    (hx : c.sender.exit? = some exit) : ∃ before m after d, ms = before ++ m :: after ∧
      (start shared id quota room).steps settings before = some d ∧ d.Decides m exit ∧
      (exit ≠ .quotaReached → d.taken = c.taken) := by
  obtain ⟨before, m, after, d, d', rfl, hd, hstep, hafter, hnot, hexit⟩ :=
    Moves.exists_turn (P := fun c : SenderCourse => c.sender.exit? = some exit) h nofun hx
  obtain ⟨hdecides, htaken⟩ := decides_of_step hstep hexit hnot
  refine ⟨before, m, after, d, rfl, hd, hdecides, fun hne => ?_⟩
  rw [← htaken hne]
  exact (leaves_steps hafter (leaves_of_exit? hexit) rfl).symm

/-! ### The report -/

/-- An event that changes nothing is not seen. -/
theorem met_looked (hw : c.written = false) : c.met .looked (c.shared, c.sender) = c := by
  have hcounted : c.counted + c.shared.counters.since c.shared.counters = c.counted := by
    show Counters.add _ _ = _
    simp [Counters.add, Counters.since]
  have hrecorded := recorded_met (y := (c.shared, c.sender)) .looked []
    (List.append_nil _).symm
  rw [List.append_nil] at hrecorded
  rcases c with ⟨shared, sender, written, taken, recorded, counted, seen, repaired, strays⟩
  simp only [met] at hcounted hrecorded hw ⊢
  simp [hcounted, hrecorded, hw, SenderEvent.opens, SenderEvent.isLoss]

/-- **A look that finds nothing changes nothing.** -/
theorem idle_step (hc : c.Sound settings id quota room) (hstop : c.shared.stopping = false)
    (hq : c.shared.queue.toList = []) (hp : c.shared.queue.producer = true)
    (h : c.step settings (.meets .looked) = some c') : c' = c := by
  obtain ⟨chapters, hand, copies, hchapters⟩ := hc.chapters
  obtain ⟨y, hy, rfl⟩ : ∃ y, c.sender.step settings c.shared .looked = some y ∧
      c.met .looked y = c' := by simpa [step, SenderEvent.isReply] using h
  have hwaiting : c.sender.stage = .waiting := by
    cases hs : c.sender.stage <;> simp [Sender.step, hs] at hy
    rfl
  have hreason : Sender.hasReason c.shared = false := by
    simp [Sender.hasReason, hstop, hp, (Queue.isEmpty_iff _).mpr hq]
  obtain rfl := Sender.eq_of_idles hy ⟨hwaiting, hreason⟩
  refine met_looked ?_
  by_contra hw
  have hsending := hchapters.sending (by simpa using hw) (by simp [hwaiting])
  simp [Sender.isSending, hwaiting] at hsending

/-- A report is what was seen, and the reason in it was true. -/
structure Accounted (settings : RetrySettings) (shared : Shared) (id quota room : Nat)
    (ms : List SenderMove) (c : SenderCourse) (r : SenderReport) : Prop where
  id_eq : r.id = id
  room_eq : r.room = room
  quota_eq : r.quota = quota
  processed_eq : r.processed = r.succeeded + r.failed
  within : r.processed ≤ quota
  taken : c.taken.length = r.processed
  /-- There is one record for each message that was taken, in the same order and of the same kind. -/
  kinds : c.recorded.map (·.kind) = c.taken.map (·.kind)
  rooms : ∀ x ∈ c.recorded, x.room = room
  recorded_ok : c.recorded.countP (·.outcome == .ok) = r.succeeded
  recorded_fail : c.recorded.countP (·.outcome == .fail) = r.failed
  counted_ok : c.counted.succeeded = r.succeeded
  counted_fail : c.counted.failed = r.failed
  /-- A sender that leaves for want of a connection could not open its first one, and has taken
  nothing, recorded nothing and counted no message. -/
  failed : ∀ reason, r.exit = .connectFailed reason →
    c.taken = [] ∧ c.recorded = [] ∧ r.processed = 0 ∧
    ∃ before err after d, ms = before ++ .meets (.dialed (.error err)) :: after ∧
      (start shared id quota room).steps settings before = some d ∧
      d.sender.stage = .dialing ∧ reason = err.message
  /-- Every other sender has closed its connection, and gives its quota as its reason exactly if it
  has done it. -/
  closed : (∀ reason, r.exit ≠ .connectFailed reason) →
    (r.exit = .quotaReached ↔ r.processed = quota) ∧
    c.sender.connection.state = .closed ∧ c.sender.connection.link = none
  /-- A sender that found the queue drained looked when nothing was there and the producer had gone,
  and has taken nothing since. -/
  drained : r.exit = .queueDrained → r.processed < quota ∧
    ∃ before after d, ms = before ++ .meets .looked :: after ∧
      (start shared id quota room).steps settings before = some d ∧
      d.shared.queue.toList = [] ∧ d.shared.queue.producer = false ∧ d.taken = c.taken
  /-- A sender that was told to stop looked when the sign had been given, and has taken nothing
  since. -/
  told : r.exit = .shutdown → r.processed < quota ∧
    ∃ before after d, ms = before ++ .meets .looked :: after ∧
      (start shared id quota room).steps settings before = some d ∧
      d.shared.stopping = true ∧ d.taken = c.taken

/-- The records of a sender that has left are of the kinds of what it took. -/
theorem Sound.kinds_eq (hc : c.Sound settings id quota room) (hs : c.sender.stage = .left exit) :
    c.recorded.map (·.kind) = c.taken.map (·.kind) := by
  obtain ⟨chapters, hand, copies, hchapters⟩ := hc.chapters
  have hhand : hand = none := by
    rw [hchapters.hand_eq (by simp [hs])]
    simp [Sender.inHand?, hs]
  rw [hchapters.taken_eq, hchapters.recorded_eq, hhand, Option.toList_none, List.append_nil,
    List.map_map, List.map_map]
  exact List.map_congr_left fun ch hch => (hchapters.regular ch hch).kind_eq

/-- **The report of every course**: whatever the others and the far side do and whenever the sign is
given, what a sender reports is what was seen, and its reason was true. -/
theorem accounted_of_steps (settings : RetrySettings) (shared : Shared) (id quota room : Nat)
    (h : (start shared id quota room).steps settings ms = some c) :
    (∀ r, c.sender.report? = some r → c.Accounted settings shared id quota room ms r) ∧
    (c.shared.stopping = false → c.shared.queue.toList = [] → c.shared.queue.producer = true →
      ∀ c', c.step settings (.meets .looked) = some c' → c' = c) := by
  have hc := sound_of_steps h
  refine ⟨fun r hr => ?_, fun hstop hq hp c' => idle_step hc hstop hq hp⟩
  obtain ⟨hprocessed, hsucceeded, hfailed, hroom, hid, hquota, hs⟩ := Sender.report?_eq hr
  obtain ⟨hconcluded, hfits⟩ := hc.sender.of_left hs
  have hexit : c.sender.exit? = some r.exit := by simp [Sender.exit?, hs]
  obtain ⟨before, m, after, d, hms, hd, hdecides, htaken⟩ := exists_decision h hexit
  rw [← hprocessed, ← hquota] at hfits
  have hkinds := hc.kinds_eq hs
  have hlength : c.taken.length = r.processed := by rw [hprocessed, hc.processed_eq]
  have hquota : r.quota = quota := hquota.trans hc.quota_eq
  rw [hquota] at hfits
  refine {
    id_eq := hid.trans hc.id_eq
    room_eq := hroom.trans hc.room_eq
    quota_eq := hquota
    processed_eq := by rw [hprocessed, hconcluded, hsucceeded, hfailed, Sender.concluded]
    within := hfits.le
    taken := hlength
    kinds := hkinds
    rooms := hc.rooms
    recorded_ok := by rw [hsucceeded, hc.succeeded_eq]
    recorded_fail := by rw [hfailed, hc.failed_eq]
    counted_ok := hc.counted_ok.trans hsucceeded.symm
    counted_fail := hc.counted_fail.trans hfailed.symm
    failed := ?failed, closed := ?closed, drained := ?drained, told := ?told }
  case failed =>
    intro reason hreason
    rw [hreason] at hdecides hfits
    have hnothing : c.taken = [] := List.length_eq_zero_iff.mp (hlength.trans hfits)
    have hnone : c.recorded = [] := by simpa [hnothing] using hkinds
    cases hdecides with
    | failed err hst => exact ⟨hnothing, hnone, hfits, before, err, after, d, hms, hd, hst, rfl⟩
  case closed =>
    intro hne
    refine ⟨hfits.eq_quotaReached_iff hne, (hc.closed _ hs).resolve_left ?_⟩
    rintro ⟨reason, hreason⟩
    exact hne reason hreason
  case drained =>
    intro hx
    rw [hx] at hdecides hfits htaken
    cases hdecides with
    | drained hst hq hp => exact ⟨hfits, before, after, d, hms, hd, hq, hp, htaken (by simp)⟩
  case told =>
    intro hx
    rw [hx] at hdecides hfits htaken
    cases hdecides with
    | told hst hstop => exact ⟨hfits, before, after, d, hms, hd, hstop, htaken (by simp)⟩

/-! ### A sender that is told to stop -/

/-- Two attempts at each message, without a pause between them. -/
def twice : RetrySettings := { maxAttempts := 2, baseBackoff := .zero, ackTimeout := .zero }

/-- A greeting and an announcement of leaving. -/
def hello : WorkItem :=
  { userId := 1, body := "hello", createdAt := { seconds := 0, nanos := 0 }, kind := .join, room := 1 }

/-- What is shared around a queue that holds some items. -/
def around (items : List WorkItem) (stopping : Bool) : Shared :=
  { queue := items.foldl Queue.push (.bounded 4), stopping }

/-- A sender that may take three messages looks once in vain. It takes a greeting, which is
acknowledged, and a farewell, for which it finds its link lost and is not answered on the next one.
Then it is told to stop. -/
def outing : List SenderMove :=
  [.meets (.dialed (.ok ())), .meets .looked,
    .others (around [hello, { hello with kind := .leave }] false), .meets .looked, .wrote,
    .meets (.replied (.ok "ok") true), .meets .looked, .meets .lost, .refused, .meets .rested,
    .meets (.dialed (.ok ())), .wrote, .meets (.replied (.error .closed) false),
    .others (around [hello] true), .meets .looked, .meets .closed]

/-- The sender after that. -/
def returned : SenderCourse :=
  ((start (around [] false) 0 3 7).steps twice outing).get (by decide)

/-- It reports both messages, and the kinds of its records are those of the messages. -/
theorem accounted_outing :
    (start (around [] false) 0 3 7).steps twice outing = some returned ∧
    ∃ r, returned.sender.report? = some r ∧ r.exit = .shutdown ∧ r.processed < 3 ∧
      returned.taken.length = r.processed ∧ returned.recorded.map (·.kind) = [.join, .leave] := by
  have hsteps : (start (around [] false) 0 3 7).steps twice outing = some returned :=
    (Option.some_get _).symm
  have hreport : returned.sender.report? = some
      { id := 0, room := 7, quota := 3, processed := 2, succeeded := 1, failed := 1,
        exit := .shutdown } := by decide
  have haccounted := (accounted_of_steps twice (around [] false) 0 3 7 hsteps).1 _ hreport
  have hkinds : returned.taken.map (·.kind) = [.join, .leave] := by decide
  exact ⟨hsteps, _, hreport, rfl, (haccounted.told rfl).1, haccounted.taken,
    haccounted.kinds.trans hkinds⟩

end LoadRig.SenderCourse
