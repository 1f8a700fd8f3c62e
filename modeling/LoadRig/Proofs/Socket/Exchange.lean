import LoadRig.Proofs.Moves
import LoadRig.Proofs.Socket.Client
/-!
# Whose answer is it?

A far end that answers each message with one text, in order, and takes any time for it. Nothing in an
answer tells which message it belongs to; the near end gives it to the message that waits when it
comes in. So the reply to a message is the next answer that comes in once the message has been begun.
It is the message's own answer exactly if nothing was outstanding at that moment. After a message was
given up, its answer is outstanding, and every later message is one behind until an answer comes in
between two messages and is dropped.

## Main definitions

* `LoadRig.Socket.Exchange` — the near end together with what has been asked and answered so far.
* `LoadRig.Socket.Exchange.step` — a move, where of all texts only the next answer comes in.
* `LoadRig.Socket.Exchange.Sound` — the invariant.

## Main results

* `LoadRig.Socket.Exchange.reply_of_steps` — which answer a message gets, and when it is its own.
* `LoadRig.Socket.Exchange.late_reply` — a run in which it is not.
* `LoadRig.Socket.Exchange.own_reply_of_steps` — it is, as long as no message is given up.
-/

namespace LoadRig.Socket

/-- Whether neither the owner gives a message up nor anything but an answer comes in for it. -/
def Move.isPatient : Move → Bool
  | .expire _ | .inbound .binary => false
  | _ => true

/-- What stood behind a message when it was begun. -/
structure Mark where
  payload : String
  /-- The number of messages begun before it. -/
  number : Nat
  /-- The number of answers that had come in before it. -/
  heard : Nat
deriving DecidableEq, Repr

/-- The near end of a socket whose far end answers one message after the other. -/
structure Exchange where
  client : Client := {}
  /-- The payloads of the messages begun so far. -/
  begun : List String := []
  /-- The number of answers that have come in. -/
  answered : Nat := 0
  /-- What stood behind the message begun last. -/
  last : Mark := ⟨"", 0, 0⟩
  /-- The messages that have ended, and what they ended in. -/
  ended : List (Mark × Answer) := []

namespace Exchange

variable (far : Nat → String → String)

/-- The answer to one of the messages begun, by its place. The far end may go by the place and by the
payload. -/
def answer? (begun : List String) (n : Nat) : Option String := begun[n]?.map (far n)

/-- Of all texts only the answer that is due may come in. -/
def allows (x : Exchange) : Move → Bool
  | .inbound (.text s) => answer? far x.begun x.answered == some s
  | _ => true

/-- What stands behind a message that is begun now. -/
def mark (x : Exchange) (payload : String) : Mark := ⟨payload, x.begun.length, x.answered⟩

/-- The exchange after a move that made `client` of the near end and brought a message to the end
`a`. A message that is refused ends as it is begun. -/
def after (x : Exchange) (client : Client) : Move → Option Answer → Exchange
  | .send payload, none =>
    { x with client, begun := x.begun ++ [payload], last := x.mark payload }
  | .send payload, some a => { x with client, ended := x.ended ++ [(x.mark payload, a)] }
  | .inbound (.text _), _ => { x with client, answered := x.answered + 1 }
  | _, none => { x with client }
  | _, some a => { x with client, ended := x.ended ++ [(x.last, a)] }

/-- What a move makes of an exchange; nothing if the move cannot happen. -/
def step (x : Exchange) (m : Move) : Option Exchange :=
  if x.allows far m then (x.client.step m).map fun (client, a) => x.after client m a else none

/-- What a list of moves makes of an exchange. -/
def steps (x : Exchange) (ms : List Move) : Option Exchange := Moves.follow (step far) x ms

/-- The reply `r` to a message is the first answer that came in once the message was begun. -/
structure Fits (begun : List String) (mark : Mark) (r : String) : Prop where
  within : mark.heard ≤ mark.number
  asked : begun[mark.number]? = some mark.payload
  reply : answer? far begun mark.heard = some r

/-- The invariant: while the slot is armed, nothing has come in since the message was begun, so what
its mail holds is the first answer since then. -/
structure Sound (x : Exchange) : Prop where
  within : x.answered ≤ x.begun.length
  armed : x.client.slot ≠ none → x.last.heard = x.answered
  under : ∀ call, x.client.call = some call →
    x.last.heard ≤ x.last.number ∧ x.begun[x.last.number]? = some x.last.payload
  mail : ∀ call r, x.client.call = some call → call.mail = some (.ok r) →
    answer? far x.begun x.last.heard = some r
  ended : ∀ mark r, (mark, .ok r) ∈ x.ended → Fits far x.begun mark r

variable {far} {x y : Exchange} {m : Move} {ms : List Move} {begun : List String}

/-! ### Single moves -/

/-- A move is one of the near end that the far end allows. -/
theorem does_of_step (h : x.step far m = some y) :
    x.allows far m = true ∧ ∃ client a, x.client.Does m client a ∧ y = x.after client m a := by
  unfold step at h
  split at h
  · next hm =>
    obtain ⟨⟨client, a⟩, hs, hy⟩ := Option.map_eq_some_iff.mp h
    exact ⟨hm, client, a, Client.does_of_step hs, hy.symm⟩
  · cases h

/-- What was asked and answered stays so. -/
theorem Fits.append {mark : Mark} {r : String} (hf : Fits far begun mark r) (later : List String) :
    Fits far (begun ++ later) mark r := by
  obtain ⟨hasked, -⟩ := List.getElem?_eq_some_iff.mp hf.asked
  have hheard : mark.heard < begun.length := Nat.lt_of_le_of_lt hf.within hasked
  refine ⟨hf.within, ?_, ?_⟩
  · rw [List.getElem?_append_left hasked, hf.asked]
  · rw [answer?, List.getElem?_append_left hheard]
    exact hf.reply

/-- A move that leaves the message under way as it is, but for its being written. -/
theorem Sound.carry (hx : x.Sound far) {client : Client}
    (hs : client.slot ≠ none → x.client.slot ≠ none)
    (hc : ∀ call', client.call = some call' →
      ∃ call, x.client.call = some call ∧
        ∀ r, call'.mail = some (.ok r) → call.mail = some (.ok r)) :
    { x with client }.Sound far where
  within := hx.within
  armed hn := hx.armed (hs hn)
  under call' h := by
    obtain ⟨call, hcall, -⟩ := hc call' h
    exact hx.under call hcall
  mail call' r h hr := by
    obtain ⟨call, hcall, hm⟩ := hc call' h
    exact hx.mail call r hcall (hm r hr)
  ended := hx.ended

/-- A message that ends with a reply had it in its mail. -/
theorem Sound.conclude (hx : x.Sound far) {client : Client} {call : Call} {a : Answer}
    (hcall : x.client.call = some call) (hn : client.call = none)
    (hs : client.slot ≠ none → x.client.slot ≠ none)
    (ha : ∀ r, a = .ok r → call.mail = some (.ok r)) :
    { x with client, ended := x.ended ++ [(x.last, a)] }.Sound far where
  within := hx.within
  armed h := hx.armed (hs h)
  under call' h := by simp [hn] at h
  mail call' r h := by simp [hn] at h
  ended mark r hr := by
    rcases List.mem_append.mp hr with hr | hr
    · exact hx.ended mark r hr
    · cases List.mem_singleton.mp hr
      obtain ⟨hle, hasked⟩ := hx.under call hcall
      exact ⟨hle, hasked, hx.mail call r hcall (ha r rfl)⟩

/-- The next answer comes in. If the slot is armed, it is the first one since the message was
begun. -/
theorem Sound.hear (hx : x.Sound far) {s : String} (hs : answer? far x.begun x.answered = some s) :
    { x with client := x.client.deliver (.ok s), answered := x.answered + 1 }.Sound far where
  within := by
    obtain ⟨payload, hp, -⟩ := Option.map_eq_some_iff.mp hs
    exact (List.getElem?_eq_some_iff.mp hp).choose
  armed h := absurd (x.client.slot_deliver _) h
  under call' h := by
    obtain ⟨call, hcall, -⟩ := Option.map_eq_some_iff.mp (Client.call_deliver .. ▸ h)
    exact hx.under call hcall
  mail call' r h hr := by
    obtain ⟨call, hcall, rfl⟩ := Option.map_eq_some_iff.mp (Client.call_deliver .. ▸ h)
    split at hr
    · next hslot =>
      cases hr
      have harm : x.last.heard = x.answered := hx.armed (by simp [hslot])
      show answer? far x.begun x.last.heard = some s
      rw [harm, hs]
    · exact hx.mail call r hcall hr
  ended := hx.ended

/-- A message is begun. -/
theorem Sound.begin (hx : x.Sound far) {client : Client} {payload : String}
    (hc : ∀ call, client.call = some call → call.mail = none) :
    { x with client, begun := x.begun ++ [payload], last := x.mark payload }.Sound far where
  within := by
    have := hx.within
    simp only [List.length_append, List.length_singleton]
    omega
  armed _ := rfl
  under _ _ := ⟨hx.within, List.getElem?_concat_length⟩
  mail call r h hr := by simp [hc call h] at hr
  ended mark r hr := (hx.ended mark r hr).append _

theorem sound_step (h : x.step far m = some y) (hx : x.Sound far) : y.Sound far := by
  obtain ⟨hm, client, a, ht, rfl⟩ := does_of_step h
  cases ht with
  | begun payload hc ho =>
    refine hx.begin ?_
    rintro call ⟨⟩
    rfl
  | refused payload hc ho =>
    refine ⟨hx.within, hx.armed, hx.under, hx.mail, ?_⟩
    intro mark r hr
    rcases List.mem_append.mp hr with hr | hr
    · exact hx.ended mark r hr
    · cases List.mem_singleton.mp hr
  | written call hc hw =>
    refine hx.carry id ?_
    rintro call' ⟨⟩
    exact ⟨call, hc, fun _ => id⟩
  | broken reason call hc hw => exact hx.conclude hc rfl (absurd rfl) nofun
  | delivered f a hr hf =>
    cases f with
    | text s =>
      cases hf
      exact hx.hear (beq_iff_eq.mp hm)
    | binary =>
      cases hf
      refine hx.carry (absurd (x.client.slot_deliver _)) fun call' h => ?_
      obtain ⟨call, hcall, rfl⟩ := Option.map_eq_some_iff.mp (Client.call_deliver .. ▸ h)
      refine ⟨call, hcall, fun r hr => ?_⟩
      split at hr
      · cases hr
      · exact hr
    | control | close | failure | finish => cases hf
  | ignored hr => exact hx
  | stopped f hr hf =>
    rcases hf with rfl | rfl | rfl <;>
      exact hx.carry (absurd rfl) fun call h => ⟨call, h, fun _ => id⟩
  | ended call a hc hw ha =>
    refine hx.conclude hc rfl id ?_
    rintro r rfl
    exact Client.mail_of_verdict ha
  | expired duration call hc hw ha => exact hx.conclude hc rfl (absurd rfl) nofun
  | closed hc => exact hx.carry id fun call h => ⟨call, h, fun _ => id⟩

/-! ### Runs -/

theorem sound_start : ({} : Exchange).Sound far where
  within := Nat.le_refl _
  armed h := absurd rfl h
  under _ := nofun
  mail _ _ := nofun
  ended _ _ := nofun

theorem sound_steps (h : ({} : Exchange).steps far ms = some x) : x.Sound far :=
  Moves.invariant (fun _ _ _ hs hstep => sound_step hstep hs) h sound_start

/-- A reply to a message that nothing was outstanding for is its own. -/
theorem Fits.own {mark : Mark} {r : String} (hf : Fits far begun mark r)
    (he : mark.heard = mark.number) : r = far mark.number mark.payload := by
  have hreply := hf.reply
  rw [he, answer?, hf.asked] at hreply
  exact (Option.some.inj hreply).symm

/-- The reply to a message is the first answer that came in once the message was begun. It is the
message's own answer if nothing was outstanding at that moment, and where answers can be told apart,
only then. -/
theorem reply_of_steps {mark : Mark} {r : String} (h : ({} : Exchange).steps far ms = some x)
    (hr : (mark, .ok r) ∈ x.ended) :
    x.begun[mark.number]? = some mark.payload ∧ mark.heard ≤ mark.number ∧
      answer? far x.begun mark.heard = some r ∧
      (mark.heard = mark.number → r = far mark.number mark.payload) ∧
      ((∀ i j s t, far i s = far j t → i = j) → r = far mark.number mark.payload →
        mark.heard = mark.number) := by
  have hf : Fits far x.begun mark r := (sound_steps h).ended mark r hr
  refine ⟨hf.asked, hf.within, hf.reply, hf.own, fun hfar he => ?_⟩
  obtain ⟨payload, -, hp⟩ := Option.map_eq_some_iff.mp hf.reply
  exact hfar _ _ _ _ (hp.trans he)

/-- A far end that says what it answers. -/
def echo (_ : Nat) (payload : String) : String := "answer to " ++ payload

/-- A message that is given up, and one that is begun before the answer to the first comes in. -/
def late : List Move :=
  [.send "a", .wrote none, .expire (Duration.ofMillis 50), .send "b", .wrote none,
    .inbound (.text "answer to a"), .look]

theorem steps_late : ∃ x, ({} : Exchange).steps echo late = some x ∧
    x.ended = [(⟨"a", 0, 0⟩, .error (.ackTimeout (Duration.ofMillis 50))),
      (⟨"b", 1, 0⟩, .ok "answer to a")] :=
  ⟨_, rfl, rfl⟩

theorem reply_of_late : ∃ x, ({} : Exchange).steps echo late = some x ∧
    x.begun[1]? = some "b" ∧ answer? echo x.begun 0 = some "answer to a" := by
  obtain ⟨x, hx, he⟩ := steps_late
  have hmem : (⟨"b", 1, 0⟩, .ok "answer to a") ∈ x.ended := he ▸ .tail _ (.head _)
  obtain ⟨hb, -, hr, -⟩ := reply_of_steps hx hmem
  exact ⟨x, hx, hb, hr⟩

/-- The second message ends with the answer to the first. -/
theorem late_reply : ∃ x, ({} : Exchange).steps echo late = some x ∧
    (⟨"b", 1, 0⟩, .ok "answer to a") ∈ x.ended ∧ echo 1 "b" ≠ "answer to a" := by
  obtain ⟨x, hx, he⟩ := steps_late
  exact ⟨x, hx, he ▸ .tail _ (.head _), by decide⟩

/-! ### Runs in which no message is given up -/

/-- The far end is behind only by the message that waits. -/
structure InStep (x : Exchange) : Prop where
  idle : x.client.isOpen = true → x.client.call = none → x.answered = x.begun.length
  busy : x.client.isOpen = true → ∀ call, x.client.call = some call →
    x.client.slot = some call.ticket ∧ call.mail = none ∧ x.answered + 1 = x.begun.length ∨
      call.mail ≠ none ∧ x.answered = x.begun.length
  last : ∀ call, x.client.call = some call → x.last.heard = x.last.number
  ended : ∀ mark r, (mark, .ok r) ∈ x.ended → mark.heard = mark.number

/-- A message that has ended was in step when it was begun. -/
theorem InStep.ended_concat (hx : x.InStep) {call : Call} (hc : x.client.call = some call)
    (a : Answer) : ∀ mark r, (mark, .ok r) ∈ x.ended ++ [(x.last, a)] → mark.heard = mark.number := by
  intro mark r hr
  rcases List.mem_append.mp hr with hr | hr
  · exact hx.ended mark r hr
  · cases List.mem_singleton.mp hr
    exact hx.last call hc

/-- The answer that is due comes in for the message that waits for it. -/
theorem InStep.hear (hx : x.InStep) {s : String} (hs : answer? far x.begun x.answered = some s) :
    { x with client := x.client.deliver (.ok s), answered := x.answered + 1 }.InStep := by
  obtain ⟨payload, hp, -⟩ := Option.map_eq_some_iff.mp hs
  have hlt : x.answered < x.begun.length := (List.getElem?_eq_some_iff.mp hp).choose
  refine ⟨fun ho hn => ?_, fun ho call' hc => ?_, fun call' hc => ?_, hx.ended⟩
  · have hn : x.client.call = none := Option.map_eq_none_iff.mp (Client.call_deliver .. ▸ hn)
    have := hx.idle (x.client.isOpen_deliver _ ▸ ho) hn
    omega
  · obtain ⟨call, hcall, rfl⟩ := Option.map_eq_some_iff.mp (Client.call_deliver .. ▸ hc)
    rcases hx.busy (x.client.isOpen_deliver _ ▸ ho) call hcall with ⟨hslot, -, heq⟩ | ⟨-, heq⟩
    · rw [if_pos hslot]
      exact .inr ⟨nofun, heq⟩
    · omega
  · obtain ⟨call, hcall, -⟩ := Option.map_eq_some_iff.mp (Client.call_deliver .. ▸ hc)
    exact hx.last call hcall

/-- A socket that is no longer open need not be in step. -/
theorem InStep.shut (hx : x.InStep) {client : Client} (ho : client.isOpen = false)
    (hc : ∀ call, client.call = some call → x.client.call = some call) :
    { x with client }.InStep where
  idle h := by simp [ho] at h
  busy h := by simp [ho] at h
  last call h := hx.last call (hc call h)
  ended := hx.ended

theorem inStep_step (h : x.step far m = some y) (hm : m.isPatient = true) (hx : x.InStep) :
    y.InStep := by
  obtain ⟨ha, client, a, ht, rfl⟩ := does_of_step h
  cases ht with
  | begun payload hc ho =>
    have heq : x.answered = x.begun.length := hx.idle ho hc
    refine ⟨nofun, fun _ call hcall => ?_, fun _ _ => heq, hx.ended⟩
    cases hcall
    exact .inl ⟨rfl, rfl, by simp [after, heq]⟩
  | refused payload hc ho =>
    refine ⟨hx.idle, hx.busy, hx.last, ?_⟩
    intro mark r hr
    rcases List.mem_append.mp hr with hr | hr
    · exact hx.ended mark r hr
    · cases List.mem_singleton.mp hr
  | written call hc hw =>
    refine ⟨nofun, fun ho call' hc' => ?_, fun _ _ => hx.last call hc, hx.ended⟩
    cases hc'
    exact hx.busy ho call hc
  | broken reason call hc hw => exact ⟨nofun, nofun, nofun, hx.ended_concat hc _⟩
  | delivered f a hr hf =>
    cases f with
    | text s =>
      cases hf
      exact hx.hear (beq_iff_eq.mp ha)
    | binary => cases hm
    | control | close | failure | finish => cases hf
  | ignored hr => exact hx
  | stopped f hr hf => rcases hf with rfl | rfl | rfl <;> exact hx.shut rfl fun _ => id
  | ended call a hc hw hv =>
    refine ⟨fun ho _ => ?_, nofun, nofun, hx.ended_concat hc _⟩
    rcases hx.busy ho call hc with ⟨hslot, hmail, -⟩ | ⟨-, heq⟩
    · simp [Client.verdict?, hmail, hslot] at hv
    · exact heq
  | expired duration call hc hw hv => cases hm
  | closed hc => exact hx.shut rfl fun _ => id

theorem inStep_start : ({} : Exchange).InStep := ⟨fun _ _ => rfl, nofun, nofun, nofun⟩

theorem inStep_steps (h : ({} : Exchange).steps far ms = some x)
    (hp : ∀ m ∈ ms, m.isPatient = true) : x.InStep := by
  -- the moves so far are part of what is kept: each has to be patient
  let P (ms : List Move) (x : Exchange) : Prop := (∀ m ∈ ms, m.isPatient = true) → x.InStep
  refine Moves.history (P := P) [] ?_ h (fun _ => inStep_start) hp
  intro ms x m y hx hstep hp
  exact inStep_step hstep (hp m (by simp)) (hx fun n hn => hp n (List.mem_append_left _ hn))

/-- As long as no message is given up and nothing but answers comes in, every reply is the answer to
the message it was given for. -/
theorem own_reply_of_steps {mark : Mark} {r : String} (h : ({} : Exchange).steps far ms = some x)
    (hp : ∀ m ∈ ms, m.isPatient = true) (hr : (mark, .ok r) ∈ x.ended) :
    r = far mark.number mark.payload :=
  ((sound_steps h).ended mark r hr).own ((inStep_steps h hp).ended mark r hr)

end Exchange

end LoadRig.Socket
