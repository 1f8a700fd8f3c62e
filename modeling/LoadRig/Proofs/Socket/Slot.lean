import LoadRig.Proofs.Moves
import LoadRig.Proofs.Socket.Client
import Mathlib.Data.List.Flatten
import Mathlib.Data.List.Nodup
/-!
# One frame, one message

The reader of a socket and its owner meet in a slot. A message arms it when it is begun, and the
first frame after that which stands for an answer empties it and goes to the message. So the slot
is armed only while a message is under way that has got nothing yet and may still get something: a
message that was given up, or could not be written, does not stay in it, and a frame that comes in
between two messages is given to nobody. Such a frame leaves no trace at the near end, so it does
not matter whether the reader takes one more while it is being stopped.

A watch keeps what the reader has met, and which frames it has handed to a message. What a message
ends in is then a matter of the frames that were met while it was under way, and of the move by
which it ended.

## Main definitions

* `LoadRig.Socket.Watch` — the near end, and what has come of everything that the reader has met.
* `LoadRig.Socket.Ended.Lawful` — how a message ends.
* `LoadRig.Socket.Heard` — what is true of the frames that are handed to a message.
* `LoadRig.Socket.Watch.Sound` — the invariant.
* `LoadRig.Socket.Watch.Disciplined` — what is true at any time, and from then on.

## Main results

* `LoadRig.Socket.Watch.sound_step` — every move keeps the invariant.
* `LoadRig.Socket.Watch.disciplined_of_steps` — whatever the moves were.
-/

namespace LoadRig.Socket

/-! ### What is watched -/

/-- Whether the reader ends with it. -/
def Inbound.ends : Inbound → Bool
  | .close | .failure | .finish => true
  | .text _ | .binary | .control => false

/-- A message that has ended. -/
structure Ended where
  /-- How much the reader had met when the message was begun. -/
  since : Nat
  /-- How much it had met when the message ended. -/
  till : Nat
  /-- The frames that were handed to the message, by their places. -/
  heard : List Nat
  /-- The move by which the message ended. -/
  move : Move
  answer : Answer

/-- The near end of a socket, and what has come of everything that the reader has met. -/
structure Watch where
  client : Client := {}
  /-- What the reader has met. -/
  met : List Inbound := []
  /-- How much it had met when the message under way was begun. -/
  since : Nat := 0
  /-- The frames that were handed to the message under way, by their places. -/
  heard : List Nat := []
  ended : List Ended := []

/-- The end of a message that is begun when the socket is no longer open and `n` things were met. -/
def refusal (n : Nat) (payload : String) : Ended :=
  { since := n, till := n, heard := [], move := .send payload, answer := .error .closed }

/-- The end that a move brings when the socket is no longer open. -/
def Move.refusal? (n : Nat) : Move → Option Ended
  | .send payload => some (refusal n payload)
  | _ => none

/-- How a message may end when the reader has met `met`. -/
inductive Ended.Lawful (met : List Inbound) : Ended → Prop
  | refused (n : Nat) (payload : String) : Lawful met (refusal n payload)
  | broken (since till : Nat) (heard : List Nat) (reason : String) :
      Lawful met ⟨since, till, heard, .wrote (some reason), .error (.transport reason)⟩
  /-- A frame was handed to the message, which ends in what it stands for. -/
  | answered (since till k : Nat) (f : Inbound) (a : Answer) (hk : met[k]? = some f)
      (hf : f.answer? = some a) : Lawful met ⟨since, till, [k], .look, a⟩
  /-- The reader ended while the message was waiting. -/
  | bereft (since till k : Nat) (f : Inbound) (hsince : since ≤ k) (htill : k < till)
      (hk : met[k]? = some f) (hf : f.ends = true) :
      Lawful met ⟨since, till, [], .look, .error .closed⟩
  | expired (since till : Nat) (after : Duration) :
      Lawful met ⟨since, till, [], .expire after, .error (.ackTimeout after)⟩

/-- What is true of the frames `heard` that are handed to a message, if the reader meets `met` and
the message is under way from place `since` up to `till`. -/
structure Heard (met : List Inbound) (since till : Nat) (heard : List Nat) : Prop where
  le : since ≤ till
  le_length : till ≤ met.length
  single : heard.length ≤ 1
  within : ∀ k ∈ heard, since ≤ k ∧ k < till ∧ ∃ f a, met[k]? = some f ∧ f.answer? = some a
  /-- No frame that stands for an answer is passed over. -/
  next : ∀ j f, since ≤ j → j < till → met[j]? = some f → f.answer? ≠ none → ∃ k ∈ heard, k ≤ j

namespace Watch

/-- The frames that were handed to the message under way, when one more is met. -/
def hears (w : Watch) (f : Inbound) : List Nat :=
  if w.client.slot.isSome && f.answer?.isSome then w.heard ++ [w.met.length] else w.heard

/-- The end of the message under way. -/
def ending (w : Watch) (m : Move) (a : Answer) : Ended :=
  { since := w.since, till := w.met.length, heard := w.heard, move := m, answer := a }

/-- The watch after a move that made `client` of the near end and brought a message to the end
`a`. -/
def after (w : Watch) (client : Client) : Move → Option Answer → Watch
  | .send _, none => { w with client, since := w.met.length, heard := [] }
  | .send payload, some a =>
    { w with client, ended := w.ended ++ [{ refusal w.met.length payload with answer := a }] }
  | .inbound f, _ => { w with client, met := w.met ++ [f], heard := w.hears f }
  | _, none => { w with client }
  | m, some a => { w with client, ended := w.ended ++ [w.ending m a] }

/-- What a move makes of a watch; nothing if the move cannot happen. -/
def step (w : Watch) (m : Move) : Option Watch :=
  (w.client.step m).map fun (client, a) => w.after client m a

/-- What a list of moves makes of a watch. -/
def steps : Watch → List Move → Option Watch := Moves.follow step

/-- How far the message under way has come: it waits for a frame, has got one, or will get none. -/
inductive Stage (w : Watch) (call : Call) : Prop
  | armed (hslot : w.client.slot = some call.ticket) (hmail : call.mail = none)
      (hheard : w.heard = []) (hreading : w.client.reading = true)
  | answered (k : Nat) (f : Inbound) (a : Answer) (hslot : w.client.slot = none)
      (hmail : call.mail = some a) (hheard : w.heard = [k]) (hk : w.met[k]? = some f)
      (hf : f.answer? = some a)
  | bereft (k : Nat) (f : Inbound) (hslot : w.client.slot = none) (hmail : call.mail = none)
      (hheard : w.heard = []) (hreading : w.client.reading = false) (hsince : w.since ≤ k)
      (hk : w.met[k]? = some f) (hf : f.ends = true)

/-- What is true while a message is under way. -/
structure Under (w : Watch) (call : Call) : Prop where
  stage : w.Stage call
  heard : Heard w.met w.since w.met.length w.heard
  behind : ∀ e ∈ w.ended, e.till ≤ w.since

/-- The invariant. -/
structure Sound (w : Watch) : Prop where
  reading : w.client.isOpen = true → w.client.reading = true
  idle : w.client.call = none → w.client.slot = none
  under : ∀ call, w.client.call = some call → w.Under call
  lawful : ∀ e ∈ w.ended, e.Lawful w.met
  heard : ∀ e ∈ w.ended, Heard w.met e.since e.till e.heard
  ordered : w.ended.Pairwise fun e e' => e.till ≤ e'.since

end Watch

/-! ### What was met stays met -/

section Met

variable {met : List Inbound} {since till : Nat} {heard : List Nat} {f : Inbound}

theorem getElem?_met_append {k : Nat} (h : met[k]? = some f) (later : List Inbound) :
    (met ++ later)[k]? = some f := by
  obtain ⟨hk, -⟩ := List.getElem?_eq_some_iff.mp h
  rw [List.getElem?_append_left hk, h]

theorem Ended.Lawful.append {e : Ended} (h : e.Lawful met) (later : List Inbound) :
    e.Lawful (met ++ later) := by
  cases h with
  | refused n payload => exact .refused n payload
  | broken since till heard reason => exact .broken since till heard reason
  | answered since till k f a hk hf =>
    exact .answered since till k f a (getElem?_met_append hk later) hf
  | bereft since till k f hsince htill hk hf =>
    exact .bereft since till k f hsince htill (getElem?_met_append hk later) hf
  | expired since till after => exact .expired since till after

/-- A text frame is answered as it is, a binary frame with an error. -/
theorem Ended.Lawful.replied {e : Ended} (h : e.Lawful met) {k : Nat} (hk : k ∈ e.heard)
    (hlook : e.move = .look) : (∃ s, met[k]? = some (.text s) ∧ e.answer = .ok s) ∨
      met[k]? = some .binary ∧ e.answer = .error unexpectedBinary := by
  cases h with
  | refused n payload => cases hk
  | broken since till heard reason => cases hlook
  | answered since till j f a hj hf =>
    cases List.mem_singleton.mp hk
    cases f with
    | text s => exact .inl ⟨s, hj, (Option.some.inj hf).symm⟩
    | binary => exact .inr ⟨hj, (Option.some.inj hf).symm⟩
    | control | close | failure | finish => cases hf
  | bereft since till j f => cases hk
  | expired since till after => cases hk

/-- Only a frame brings a message to the end that it stands for. -/
theorem Ended.Lawful.heard_ne_nil {e : Ended} (h : e.Lawful met)
    (ha : (∃ s, e.answer = .ok s) ∨ ∃ reason, e.answer = .error (.protocol reason)) :
    e.move = .look ∧ e.heard ≠ [] := by
  cases h with
  | answered => exact ⟨rfl, List.cons_ne_nil _ _⟩
  | refused | broken | bereft | expired => rcases ha with ⟨s, ha⟩ | ⟨reason, ha⟩ <;> cases ha

theorem Heard.append (h : Heard met since till heard) (later : List Inbound) :
    Heard (met ++ later) since till heard where
  le := h.le
  le_length := Nat.le_trans h.le_length (by simp)
  single := h.single
  within := by
    intro k hk
    obtain ⟨hsince, htill, f, a, hf, ha⟩ := h.within k hk
    exact ⟨hsince, htill, f, a, getElem?_met_append hf later, ha⟩
  next := by
    intro j f hj hj' hf ha
    rw [List.getElem?_append_left (Nat.lt_of_lt_of_le hj' h.le_length)] at hf
    exact h.next j f hj hj' hf ha

/-- A frame that is met and not handed over: it stands for no answer, or is not the first. -/
theorem Heard.keep (h : Heard met since met.length heard) (hf : f.answer? = none ∨ heard ≠ []) :
    Heard (met ++ [f]) since (met ++ [f]).length heard where
  le := Nat.le_trans h.le (by simp)
  le_length := Nat.le_refl _
  single := h.single
  within := by
    intro k hk
    obtain ⟨hsince, htill, hrest⟩ := (h.append [f]).within k hk
    exact ⟨hsince, Nat.lt_of_lt_of_le htill (by simp), hrest⟩
  next := by
    intro j g hj hj' hg ha
    rw [List.length_append, List.length_singleton] at hj'
    rcases Nat.lt_or_ge j met.length with hlt | hge
    · exact (h.append [f]).next j g hj hlt hg ha
    · obtain rfl : j = met.length := by omega
      rw [List.getElem?_concat_length] at hg
      cases hg
      rcases hf with hf | hne
      · exact absurd hf ha
      · obtain ⟨k, hk⟩ := List.exists_mem_of_ne_nil _ hne
        exact ⟨k, hk, Nat.le_of_lt (h.within k hk).2.1⟩

/-- The first frame that stands for an answer is handed over. -/
theorem Heard.hear (h : Heard met since met.length []) {a : Answer} (hf : f.answer? = some a) :
    Heard (met ++ [f]) since (met ++ [f]).length [met.length] where
  le := Nat.le_trans h.le (by simp)
  le_length := Nat.le_refl _
  single := Nat.le_refl _
  within := by
    intro k hk
    cases List.mem_singleton.mp hk
    exact ⟨h.le, by simp, f, a, List.getElem?_concat_length, hf⟩
  next := by
    intro j g hj hj' hg ha
    rw [List.length_append, List.length_singleton] at hj'
    rcases Nat.lt_or_ge j met.length with hlt | hge
    · obtain ⟨k, hk, -⟩ := (h.append [f]).next j g hj hlt hg ha
      cases hk
    · exact ⟨met.length, .head _, hge⟩

/-- Nothing is met at the moment when a message is begun. -/
theorem heard_nil (met : List Inbound) : Heard met met.length met.length [] where
  le := Nat.le_refl _
  le_length := Nat.le_refl _
  single := Nat.zero_le _
  within := nofun
  next := fun _ _ hj hj' => absurd hj' (Nat.not_lt.mpr hj)

end Met

namespace Watch

variable {w w' : Watch} {m : Move} {ms : List Move}

/-! ### Single moves -/

@[simp] theorem client_after (w : Watch) (client : Client) (m : Move) (a : Option Answer) :
    (w.after client m a).client = client := by
  cases m <;> cases a <;> rfl

/-- A move is one of the near end. -/
theorem does_of_step (h : w.step m = some w') :
    ∃ client a, w.client.Does m client a ∧ w' = w.after client m a := by
  obtain ⟨⟨client, a⟩, hs, hw⟩ := Option.map_eq_some_iff.mp h
  exact ⟨client, a, Client.does_of_step hs, hw.symm⟩

/-- A message has ended, and none is under way. -/
theorem Sound.add (hw : w.Sound) {client : Client} {e : Ended} (hnone : client.call = none)
    (hslot : client.slot = none) (hopen : client.isOpen = true → client.reading = true)
    (hlaw : e.Lawful w.met) (hheard : Heard w.met e.since e.till e.heard)
    (hbehind : ∀ e' ∈ w.ended, e'.till ≤ e.since) :
    { w with client, ended := w.ended ++ [e] }.Sound where
  reading := hopen
  idle _ := hslot
  under call h := by simp [hnone] at h
  lawful e' he' := by
    rcases List.mem_append.mp he' with he' | he'
    · exact hw.lawful e' he'
    · cases List.mem_singleton.mp he'
      exact hlaw
  heard e' he' := by
    rcases List.mem_append.mp he' with he' | he'
    · exact hw.heard e' he'
    · cases List.mem_singleton.mp he'
      exact hheard
  ordered := by
    refine List.pairwise_append.mpr ⟨hw.ordered, List.pairwise_singleton _ _, ?_⟩
    intro e' he' e'' he''
    cases List.mem_singleton.mp he''
    exact hbehind e' he'

/-- The message under way ends. -/
theorem Sound.conclude (hw : w.Sound) {client : Client} {call : Call} {a : Answer}
    (hcall : w.client.call = some call) (hnone : client.call = none) (hslot : client.slot = none)
    (hopen : client.isOpen = true → client.reading = true)
    (hlaw : (w.ending m a).Lawful w.met) :
    { w with client, ended := w.ended ++ [w.ending m a] }.Sound :=
  hw.add hnone hslot hopen hlaw (hw.under call hcall).heard (hw.under call hcall).behind

/-- The reader meets something. -/
theorem Sound.meet (hw : w.Sound) {client : Client} {f : Inbound}
    (hopen : client.isOpen = true → client.reading = true)
    (hidle : client.call = none → client.slot = none)
    (hstage : ∀ call', client.call = some call' → ∃ call, w.client.call = some call ∧
      { w with client, met := w.met ++ [f], heard := w.hears f }.Stage call' ∧
      Heard (w.met ++ [f]) w.since (w.met ++ [f]).length (w.hears f)) :
    { w with client, met := w.met ++ [f], heard := w.hears f }.Sound := by
  refine ⟨hopen, hidle, ?_, ?_, ?_, hw.ordered⟩
  · intro call' hc
    obtain ⟨call, hcall, hstage, hheard⟩ := hstage call' hc
    exact ⟨hstage, hheard, (hw.under call hcall).behind⟩
  · exact fun e he => (hw.lawful e he).append [f]
  · exact fun e he => (hw.heard e he).append [f]

/-- A frame that stands for an answer goes to the message that waits for it, or to nobody. -/
theorem Sound.deliver (hw : w.Sound) {f : Inbound} {a : Answer} (hreading : w.client.reading = true)
    (hf : f.answer? = some a) :
    { w with client := w.client.deliver a, met := w.met ++ [f], heard := w.hears f }.Sound := by
  refine hw.meet ?_ (fun _ => w.client.slot_deliver a) fun call' hc => ?_
  · rw [Client.reading_deliver]
    exact fun _ => hreading
  obtain ⟨call, hcall, rfl⟩ := Option.map_eq_some_iff.mp (Client.call_deliver .. ▸ hc)
  obtain ⟨hstage, hheard, -⟩ := hw.under call hcall
  refine ⟨call, hcall, ?_⟩
  -- an armed slot has the ticket of the message under way, so the frame cannot miss it
  cases hstage with
  | armed hslot hmail hnil _ =>
    have hhears : w.hears f = [w.met.length] := by simp [hears, hslot, hf, hnil]
    rw [hhears, if_pos hslot]
    rw [hnil] at hheard
    exact ⟨.answered w.met.length f a (w.client.slot_deliver a) rfl rfl
      List.getElem?_concat_length hf, hheard.hear hf⟩
  | answered k g b hslot hmail hone hk hg =>
    have hhears : w.hears f = w.heard := by simp [hears, hslot]
    rw [hhears, if_neg (by simp [hslot])]
    exact ⟨.answered k g b (w.client.slot_deliver a) hmail hone (getElem?_met_append hk [f]) hg,
      hheard.keep (.inr (by simp [hone]))⟩
  | bereft k g hslot hmail hnil hended hsince hk hg => simp [hreading] at hended

/-- The reader ends. -/
theorem Sound.stop (hw : w.Sound) {f : Inbound} (hf : f.ends = true) :
    { w with client := w.client.stopReading, met := w.met ++ [f], heard := w.hears f }.Sound := by
  have hnone : f.answer? = none := by cases f <;> first | rfl | cases hf
  have hhears : w.hears f = w.heard := by simp [hears, hnone]
  refine hw.meet nofun (fun _ => rfl) fun call hcall => ⟨call, hcall, ?_⟩
  obtain ⟨hstage, hheard, -⟩ := hw.under call hcall
  rw [hhears]
  refine ⟨?_, hheard.keep (.inl hnone)⟩
  cases hstage with
  | armed hslot hmail hnil _ =>
    exact .bereft w.met.length f rfl hmail hnil rfl hheard.le List.getElem?_concat_length hf
  | answered k g b hslot hmail hone hk hg =>
    exact .answered k g b rfl hmail hone (getElem?_met_append hk [f]) hg
  | bereft k g hslot hmail hnil _ hsince hk hg =>
    exact .bereft k g rfl hmail hnil rfl hsince (getElem?_met_append hk [f]) hg

/-- The message is written, or something is met that changes nothing. -/
theorem Stage.carry {call : Call} (h : w.Stage call) (call' : Call) (later : List Inbound)
    (hticket : call'.ticket = call.ticket) (hmail : call'.mail = call.mail) :
    { w with
      client := { w.client with call := some call' }
      met := w.met ++ later }.Stage call' := by
  cases h with
  | armed hslot hnone hnil hreading =>
    exact .armed (hticket ▸ hslot) (hmail ▸ hnone) hnil hreading
  | answered k f a hslot hsome hone hk hf =>
    exact .answered k f a hslot (hmail ▸ hsome) hone (getElem?_met_append hk later) hf
  | bereft k f hslot hnone hnil hreading hsince hk hf =>
    exact .bereft k f hslot (hmail ▸ hnone) hnil hreading hsince (getElem?_met_append hk later) hf

/-- What the end of the message under way is, as far as the reader decides it. -/
theorem Stage.verdict {call : Call} {a : Answer} (h : w.Stage call)
    (ha : w.client.verdict? call = some a) :
    w.client.slot = none ∧ (w.ending .look a).Lawful w.met := by
  cases h with
  | armed hslot hmail => simp [Client.verdict?, hmail, hslot] at ha
  | answered k f b hslot hmail hone hk hf =>
    simp only [Client.verdict?, hmail] at ha
    cases ha
    rw [ending, hone]
    exact ⟨hslot, .answered _ _ k f _ hk hf⟩
  | bereft k f hslot hmail hnil hreading hsince hk hf =>
    simp only [Client.verdict?, hmail, hslot] at ha
    cases ha
    rw [ending, hnil]
    exact ⟨hslot, .bereft _ _ k f hsince (List.getElem?_eq_some_iff.mp hk).choose hk hf⟩

/-- Nothing was handed to a message whose end is open. -/
theorem Stage.heard_of_verdict {call : Call} (h : w.Stage call)
    (ha : w.client.verdict? call = none) : w.heard = [] := by
  cases h with
  | armed hslot hmail hnil => exact hnil
  | answered k f b hslot hmail => simp [Client.verdict?, hmail] at ha
  | bereft k f hslot hmail => simp [Client.verdict?, hmail, hslot] at ha

theorem sound_step (h : w.step m = some w') (hw : w.Sound) : w'.Sound := by
  obtain ⟨client, a, ht, rfl⟩ := does_of_step h
  cases ht with
  | begun payload hc ho =>
    refine ⟨hw.reading, nofun, ?_, hw.lawful, hw.heard, hw.ordered⟩
    rintro call ⟨⟩
    exact ⟨.armed rfl rfl rfl (hw.reading ho), heard_nil _, fun e he => (hw.heard e he).le_length⟩
  | refused payload hc ho =>
    exact hw.add hc (hw.idle hc) hw.reading (.refused ..) (heard_nil _)
      fun e he => (hw.heard e he).le_length
  | written call hc hw' =>
    refine ⟨hw.reading, nofun, ?_, hw.lawful, hw.heard, hw.ordered⟩
    rintro call' ⟨⟩
    obtain ⟨hstage, hheard, hbehind⟩ := hw.under call hc
    have hcarry := hstage.carry { call with written := true } [] rfl rfl
    rw [List.append_nil] at hcarry
    exact ⟨hcarry, hheard, hbehind⟩
  | broken reason call hc hw' => exact hw.conclude hc rfl rfl nofun (.broken ..)
  | delivered f a hr hf => exact hw.deliver hr hf
  | ignored hr =>
    have hhears : w.hears .control = w.heard := by simp [hears, Inbound.answer?]
    refine hw.meet hw.reading hw.idle fun call hc => ⟨call, hc, ?_⟩
    obtain ⟨hstage, hheard, -⟩ := hw.under call hc
    have hcarry := hstage.carry call [.control] rfl rfl
    rw [← hc] at hcarry
    rw [hhears]
    exact ⟨hcarry, hheard.keep (.inl rfl)⟩
  | stopped f hr hf => exact hw.stop (by rcases hf with rfl | rfl | rfl <;> rfl)
  | ended call a hc hw' ha =>
    obtain ⟨hslot, hlaw⟩ := (hw.under call hc).stage.verdict ha
    exact hw.conclude hc rfl hslot hw.reading hlaw
  | expired duration call hc hw' ha =>
    refine hw.conclude hc rfl rfl hw.reading ?_
    rw [ending, (hw.under call hc).stage.heard_of_verdict ha]
    exact .expired ..
  | closed hc =>
    refine ⟨nofun, fun _ => hw.idle hc, fun call h => ?_, hw.lawful, hw.heard, hw.ordered⟩
    rw [show w.client.call = some call from h] at hc
    cases hc

theorem sound_start : ({} : Watch).Sound where
  reading _ := rfl
  idle _ := rfl
  under _ := nofun
  lawful _ := nofun
  heard _ := nofun
  ordered := .nil

theorem sound_steps (h : ({} : Watch).steps ms = some w) : w.Sound :=
  Moves.invariant (fun _ _ _ hw hstep => sound_step hstep hw) h sound_start

/-! ### Frames that are handed over -/

/-- No frame is handed over twice: messages follow one another, and each of them gets one at most,
of those that came in meanwhile. -/
theorem Sound.nodup_heard (hw : w.Sound) : (w.ended.flatMap (·.heard)).Nodup := by
  refine List.nodup_flatMap.mpr ⟨fun e he => ?_, ?_⟩
  · rcases hheard : e.heard with _ | ⟨k, _ | ⟨j, rest⟩⟩
    · exact List.nodup_nil
    · exact List.nodup_singleton k
    · have hsingle := (hw.heard e he).single
      simp [hheard] at hsingle
  · refine hw.ordered.imp_of_mem fun {e e'} he he' hle k hk hk' => ?_
    have hlast := ((hw.heard e he).within k hk).2.1
    have hfirst := ((hw.heard e' he').within k hk').1
    omega

/-- What opens or closes the socket. -/
theorem isOpen_of_does {c client : Client} {a : Option Answer} (h : c.Does m client a) :
    client.isOpen = c.isOpen ∨ m = .close ∨ (∃ reason, m = .wrote (some reason)) ∨
      ∃ f, m = .inbound f ∧ f.ends = true := by
  cases h with
  | begun | refused | written | ignored | ended | expired => exact .inl rfl
  | delivered f a => exact .inl (Client.isOpen_deliver ..)
  | broken reason => exact .inr (.inr (.inl ⟨reason, rfl⟩))
  | stopped f hr hf =>
    exact .inr (.inr (.inr ⟨f, rfl, by rcases hf with rfl | rfl | rfl <;> rfl⟩))
  | closed => exact .inr (.inl rfl)

/-- A frame that finds the slot empty leaves no trace at the near end. -/
theorem step_inbound_of_slot {f : Inbound} (hslot : w.client.slot = none)
    (hf : f.ends = false) (h : w.step (.inbound f) = some w') :
    w' = { w with met := w.met ++ [f] } := by
  obtain ⟨client, a, ht, rfl⟩ := does_of_step h
  have hhears : w.hears f = w.heard := by simp [hears, hslot]
  cases ht with
  | delivered f a hr ha =>
    have hdeliver : w.client.deliver a = w.client := by rw [Client.deliver, hslot]
    rw [after, hhears, hdeliver]
  | ignored hr => rw [after, hhears]
  | stopped f hr hended => rcases hended with rfl | rfl | rfl <;> cases hf

/-! ### When the reader has ended -/

/-- Ended messages are not forgotten. -/
theorem exists_ended_step (h : w.step m = some w') : ∃ rest, w'.ended = w.ended ++ rest := by
  obtain ⟨client, a, -, rfl⟩ := does_of_step h
  cases m <;> cases a <;> first | exact ⟨_, (List.append_nil _).symm⟩ | exact ⟨_, rfl⟩

theorem Sound.isOpen_eq_false (hw : w.Sound) (hreading : w.client.reading = false) :
    w.client.isOpen = false := by
  rw [← Bool.not_eq_true]
  exact fun hopen => by simp [hw.reading hopen] at hreading

/-- The socket stays closed. -/
theorem shut_steps (h : w.steps ms = some w') (hreading : w.client.reading = false)
    (hopen : w.client.isOpen = false) :
    w'.client.reading = false ∧ w'.client.isOpen = false := by
  refine Moves.invariant (P := fun w => w.client.reading = false ∧ w.client.isOpen = false)
    (fun w m w' hw hstep => ?_) h ⟨hreading, hopen⟩
  obtain ⟨client, a, ht, rfl⟩ := does_of_step hstep
  cases ht with
  | begun payload hc ho => simp [hw.2] at ho
  | delivered _ _ hr | ignored hr | stopped _ hr => simp [hw.1] at hr
  | refused | written | ended | expired => exact hw
  | broken => exact ⟨hw.1, rfl⟩
  | closed => exact ⟨rfl, rfl⟩

/-- From `w` to `w'` nothing has happened but that messages were begun and refused: nothing was
written, and each of them learned that the socket is closed. -/
structure Refused (w : Watch) (ms : List Move) (w' : Watch) : Prop where
  client : w'.client = w.client
  met : w'.met = w.met
  unwritten : ∀ m ∈ ms, m = .close ∨ ∃ payload, m = .send payload
  ended : w'.ended = w.ended ++ ms.filterMap (·.refusal? w.met.length)

/-- One more move. -/
theorem Refused.concat {v : Watch} (hv : w.Refused ms v) (h : v.step m = some w')
    (hreading : w.client.reading = false) (hopen : w.client.isOpen = false)
    (hcall : w.client.call = none) : w.Refused (ms ++ [m]) w' := by
  obtain ⟨client, a, ht, rfl⟩ := does_of_step h
  rw [hv.client] at ht
  have hunwritten (hm : m = .close ∨ ∃ payload, m = .send payload) :
      ∀ m' ∈ ms ++ [m], m' = .close ∨ ∃ payload, m' = .send payload := by
    intro m' hm'
    rcases List.mem_append.mp hm' with hm' | hm'
    · exact hv.unwritten m' hm'
    · cases List.mem_singleton.mp hm'
      exact hm
  have hended : w.ended ++ (ms ++ [m]).filterMap (·.refusal? w.met.length)
      = v.ended ++ [m].filterMap (·.refusal? w.met.length) := by
    rw [List.filterMap_append, ← List.append_assoc, hv.ended]
  cases ht with
  | begun _ _ ho => simp [hopen] at ho
  | written _ hc | broken _ _ hc | ended _ _ hc | expired _ _ hc => simp [hcall] at hc
  | delivered _ _ hr | ignored hr | stopped _ hr => simp [hreading] at hr
  | refused payload =>
    refine ⟨rfl, hv.met, hunwritten (.inr ⟨payload, rfl⟩), ?_⟩
    rw [hended, after, hv.met]
    rfl
  | closed =>
    have hsame : { w.client with isOpen := false, reading := false } = w.client := by
      calc { w.client with isOpen := false, reading := false }
          = { w.client with isOpen := w.client.isOpen, reading := w.client.reading } := by
            rw [hopen, hreading]
        _ = w.client := rfl
    exact ⟨hsame, hv.met, hunwritten (.inl rfl), hended ▸ (List.append_nil _).symm⟩

theorem refused_steps (h : w.steps ms = some w') (hreading : w.client.reading = false)
    (hopen : w.client.isOpen = false) (hcall : w.client.call = none) : w.Refused ms w' :=
  Moves.history (P := w.Refused) [] (fun _ _ _ _ hv hstep => hv.concat hstep hreading hopen hcall) h
    ⟨rfl, rfl, nofun, (List.append_nil _).symm⟩

/-- A message is under way that was handed nothing, and the reader has ended. -/
structure Bereft (w : Watch) (call : Call) : Prop where
  call : w.client.call = some call
  reading : w.client.reading = false
  heard : w.heard = []

/-- The message that was under way at `w` still is at `w'`, or it has ended, and has learned that
nothing will come or that it could not be written. -/
def Resigned (w w' : Watch) : Prop :=
  (w'.ended = w.ended ∧ ∃ call, w'.Bereft call) ∨
    ∃ e rest, w'.ended = w.ended ++ e :: rest ∧
      (e.answer = .error .closed ∨ ∃ reason, e.answer = .error (.transport reason))

/-- What a message finds that is left without an answer. -/
theorem Bereft.mail {call : Call} (h : w.Bereft call) (hw : w.Sound) :
    w.client.slot = none ∧ call.mail = none := by
  cases (hw.under call h.call).stage with
  | armed hslot hmail hnil hreading => simp [h.reading] at hreading
  | answered k f a hslot hmail hone => simp [h.heard] at hone
  | bereft k f hslot hmail => exact ⟨hslot, hmail⟩

theorem Bereft.verdict {call : Call} (h : w.Bereft call) (hw : w.Sound) :
    w.client.verdict? call = some (.error .closed) := by
  obtain ⟨hslot, hmail⟩ := h.mail hw
  simp [Client.verdict?, hmail, hslot]

/-- One more move. -/
theorem Resigned.step {v : Watch} (hwv : w.Resigned v) (hv : v.Sound) (h : v.step m = some w') :
    w.Resigned w' := by
  rcases hwv with ⟨hended, call, hb⟩ | ⟨e, rest, hended, he⟩
  · have hcall := hb.call
    have hreading := hb.reading
    have hverdict := hb.verdict hv
    -- its end is decided, so the time for it cannot run out
    obtain ⟨client, a, ht, rfl⟩ := does_of_step h
    cases ht with
    | begun _ hc | refused _ hc | closed hc => simp [hcall] at hc
    | delivered _ _ hr | ignored hr | stopped _ hr => simp [hreading] at hr
    | written call' hc => exact .inl ⟨hended, _, rfl, hreading, hb.heard⟩
    | broken reason call' hc => exact .inr ⟨_, [], by rw [← hended]; rfl, .inr ⟨reason, rfl⟩⟩
    | ended call' a hc hw' ha =>
      cases hcall.symm.trans hc
      cases hverdict.symm.trans ha
      exact .inr ⟨_, [], by rw [← hended]; rfl, .inl rfl⟩
    | expired duration call' hc hw' ha =>
      cases hcall.symm.trans hc
      cases hverdict.symm.trans ha
  · obtain ⟨later, hlater⟩ := exists_ended_step h
    exact .inr ⟨e, rest ++ later, by rw [hlater, hended, List.append_assoc]; rfl, he⟩

theorem resigned_steps (hw : w.Sound) (h : w.steps ms = some w') {call : Call}
    (hb : w.Bereft call) : w.Resigned w' := by
  have hrun := Moves.invariant (P := fun v => v.Sound ∧ w.Resigned v)
    (fun _ _ _ hv hstep => ⟨sound_step hstep hv.1, hv.2.step hv.1 hstep⟩) h
    ⟨hw, .inl ⟨rfl, call, hb⟩⟩
  exact hrun.2

theorem Bereft.step_look {call : Call} (h : w.Bereft call) (hw : w.Sound)
    (hwritten : call.written = true) :
    ∃ w', w.step .look = some w' ∧ w'.ended = w.ended ++ [w.ending .look (.error .closed)] := by
  refine ⟨{ w with client := { w.client with call := none }, ended := _ }, ?_, rfl⟩
  simp only [step, Client.step, Client.look, h.call, hwritten, h.verdict hw]
  rfl

/-- A message that is left without an answer does not have to wait once it is written. -/
theorem Bereft.exists_steps {call : Call} (h : w.Bereft call) (hw : w.Sound) :
    ∃ w', w.steps (if call.written then [.look] else [.wrote none, .look]) = some w' ∧
      w'.ended = w.ended ++ [w.ending .look (.error .closed)] := by
  cases hwritten : call.written with
  | true =>
    obtain ⟨w', hlook, hended⟩ := h.step_look hw hwritten
    exact ⟨w', congrArg (Option.bind · some) hlook, hended⟩
  | false =>
    let v : Watch :=
      { w with client := { w.client with call := some { call with written := true } } }
    have hwrote : w.step (.wrote none) = some v := by
      simp only [step, Client.step, Client.wrote, h.call, hwritten]
      rfl
    have hv : v.Bereft { call with written := true } := ⟨rfl, h.reading, h.heard⟩
    obtain ⟨w', hlook, hended⟩ := hv.step_look (sound_step hwrote hw) rfl
    refine ⟨w', ?_, hended⟩
    show (w.step (.wrote none)).bind (fun w => (w.step .look).bind some) = some w'
    rw [hwrote, Option.bind_some, hlook, Option.bind_some]

/-! ### Discipline -/

/-- What is true at any time, of the messages that have ended and of what comes next. -/
structure Disciplined (w : Watch) : Prop where
  lawful : ∀ e ∈ w.ended, e.Lawful w.met
  heard : ∀ e ∈ w.ended, Heard w.met e.since e.till e.heard
  ordered : w.ended.Pairwise fun e e' => e.till ≤ e'.since
  /-- No frame is handed to two messages. -/
  once : (w.ended.flatMap (·.heard)).Nodup
  /-- What a message ends in that looks for its answer and was handed a frame. -/
  replied : ∀ e ∈ w.ended, ∀ k ∈ e.heard, e.move = .look →
    (∃ s, w.met[k]? = some (.text s) ∧ e.answer = .ok s) ∨
      w.met[k]? = some .binary ∧ e.answer = .error (.protocol "unexpected binary frame")
  /-- Nothing else ends in a reply, or in the error of an unexpected frame. -/
  handed : ∀ e ∈ w.ended,
    (∃ s, e.answer = .ok s) ∨ (∃ reason, e.answer = .error (.protocol reason)) →
      e.move = .look ∧ e.heard ≠ []
  idle : w.client.call = none → w.client.slot = none
  /-- A frame that comes in between two messages is dropped. -/
  dropped : w.client.call = none → ∀ f w', f.ends = false → w.step (.inbound f) = some w' →
    w' = { w with met := w.met ++ [f] }
  /-- No frame opens the socket, and only those that end the reader close it. -/
  steady : ∀ m w', w.step m = some w' → w'.client.isOpen = w.client.isOpen ∨ m = .close ∨
    (∃ reason, m = .wrote (some reason)) ∨ ∃ f, m = .inbound f ∧ f.ends = true
  /-- When the reader has ended, the socket is closed for good. -/
  shut : w.client.reading = false → ∀ ms w', w.steps ms = some w' →
    w'.client.reading = false ∧ w'.client.isOpen = false
  /-- A message that is left without an answer learns so, or that it could not be written. -/
  resigned : ∀ call, w.Bereft call → ∀ ms w', w.steps ms = some w' → w.Resigned w'
  /-- It does not have to wait for that, once it is written. -/
  woken : ∀ call, w.Bereft call →
    ∃ w', w.steps (if call.written then [.look] else [.wrote none, .look]) = some w' ∧
      w'.ended = w.ended ++ [w.ending .look (.error .closed)]
  /-- When the reader has ended, every message that is begun is refused. -/
  refused : w.client.reading = false → w.client.call = none → ∀ ms w', w.steps ms = some w' →
    w.Refused ms w'
  /-- With no message under way, one can always be begun. -/
  ready : w.client.call = none → ∀ payload, (w.step (.send payload)).isSome = true

theorem Sound.disciplined (hw : w.Sound) : w.Disciplined where
  lawful := hw.lawful
  heard := hw.heard
  ordered := hw.ordered
  once := hw.nodup_heard
  replied e he _ hk hlook := (hw.lawful e he).replied hk hlook
  handed e he ha := (hw.lawful e he).heard_ne_nil ha
  idle := hw.idle
  dropped hcall _ _ hf h := step_inbound_of_slot (hw.idle hcall) hf h
  steady m w' h := by
    obtain ⟨client, a, ht, rfl⟩ := does_of_step h
    rw [client_after]
    exact isOpen_of_does ht
  shut hreading _ _ h := shut_steps h hreading (hw.isOpen_eq_false hreading)
  resigned _ hb _ _ h := resigned_steps hw h hb
  woken _ hb := hb.exists_steps hw
  refused hreading hcall _ _ h := refused_steps h hreading (hw.isOpen_eq_false hreading) hcall
  ready hcall payload := by
    rw [step, Option.isSome_map, Client.step, Client.send, hcall]
    cases w.client.isOpen <;> rfl

/-- **Whatever the owner does and the reader meets**, in whatever order, a frame is for one message
and a message gets one frame. -/
theorem disciplined_of_steps (h : ({} : Watch).steps ms = some w) : w.Disciplined :=
  (sound_steps h).disciplined

/-- A frame that nobody waits for, a message that is answered by a binary frame, one that waits when
the far end closes the socket, and one that is refused. -/
def unlucky : List Move :=
  [.inbound (.text "early"), .send "a", .inbound .control, .wrote none, .inbound .binary, .look,
    .send "b", .wrote none, .inbound .close, .look, .send "c"]

theorem disciplined_unlucky : ∃ w, ({} : Watch).steps unlucky = some w ∧ w.Disciplined ∧
    w.ended.map (fun e => (e.heard, e.answer)) =
      [([2], .error unexpectedBinary), ([], .error .closed), ([], .error .closed)] :=
  ⟨_, rfl, disciplined_of_steps (show ({} : Watch).steps unlucky = some _ from rfl), rfl⟩

end Watch

end LoadRig.Socket
