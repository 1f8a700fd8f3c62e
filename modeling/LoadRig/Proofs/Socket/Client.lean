import LoadRig.Socket.Client
/-!
# What a move of the near end comes to

The near end of a socket has few things that can happen to it: a message is begun, written, answered
or given up, the reader gives a frame away or ends, the socket is closed. `LoadRig.Socket.Client.Does`
names them, each with what it needs and what it leaves behind.

## Main definitions

* `LoadRig.Socket.Inbound.answer?` — the answer that a frame stands for.
* `LoadRig.Socket.Client.Does` — the outcomes of a move.

## Main results

* `LoadRig.Socket.Client.does_of_step` — a move that can happen has one of these outcomes.
* `LoadRig.Socket.Client.mail_of_verdict` — a message that ends with a reply had it in its mail.
* `LoadRig.Socket.Client.call_deliver` — a frame goes to the message under way or to nobody.
-/

namespace LoadRig.Socket

/-- The answer that a frame stands for. The other frames are not for a message. -/
def Inbound.answer? : Inbound → Option Answer
  | .text s => some (.ok s)
  | .binary => some (.error unexpectedBinary)
  | .control | .close | .failure | .finish => none

namespace Client

/-- What a move can make of the near end, and the end of a message that it brings. -/
inductive Does (c : Client) : Move → Client → Option Answer → Prop
  | begun (payload : String) (h : c.call = none) (ho : c.isOpen = true) :
      Does c (.send payload)
        { c with
          slot := some c.tickets
          call := some { ticket := c.tickets, payload }
          tickets := c.tickets + 1 } none
  | refused (payload : String) (h : c.call = none) (ho : c.isOpen = false) :
      Does c (.send payload) c (some (.error .closed))
  | written (call : Call) (h : c.call = some call) (hw : call.written = false) :
      Does c (.wrote none) { c with call := some { call with written := true } } none
  | broken (reason : String) (call : Call) (h : c.call = some call) (hw : call.written = false) :
      Does c (.wrote (some reason)) { c with slot := none, isOpen := false, call := none }
        (some (.error (.transport reason)))
  | delivered (f : Inbound) (a : Answer) (h : c.reading = true) (hf : f.answer? = some a) :
      Does c (.inbound f) (c.deliver a) none
  | ignored (h : c.reading = true) : Does c (.inbound .control) c none
  | stopped (f : Inbound) (h : c.reading = true) (hf : f = .close ∨ f = .failure ∨ f = .finish) :
      Does c (.inbound f) c.stopReading none
  | ended (call : Call) (a : Answer) (h : c.call = some call) (hw : call.written = true)
      (ha : c.verdict? call = some a) : Does c .look { c with call := none } (some a)
  | expired (after : Duration) (call : Call) (h : c.call = some call) (hw : call.written = true)
      (ha : c.verdict? call = none) :
      Does c (.expire after) { c with slot := none, call := none }
        (some (.error (.ackTimeout after)))
  | closed (h : c.call = none) : Does c .close { c with isOpen := false, reading := false } none

variable {c c' : Client} {m : Move} {a : Option Answer}

/-- A move that can happen has one of these outcomes. -/
theorem does_of_step (h : c.step m = some (c', a)) : c.Does m c' a := by
  cases m with
  | send payload =>
    simp only [step, send] at h
    split at h
    · cases h
    · next hc =>
      split at h
      · next ho => cases h; exact .begun payload hc ho
      · next ho => cases h; exact .refused payload hc (by simpa using ho)
  | wrote failure =>
    simp only [step, wrote] at h
    split at h
    · cases h
    · next call hc =>
      split at h
      · cases h
      · next hw =>
        have hw : call.written = false := by simpa using hw
        cases failure with
        | none => cases h; exact .written call hc hw
        | some reason => cases h; exact .broken reason call hc hw
  | inbound f =>
    simp only [step, receive] at h
    split at h
    · next hr =>
      cases f with
      | text s => cases h; exact .delivered (.text s) _ hr rfl
      | binary => cases h; exact .delivered .binary _ hr rfl
      | control => cases h; exact .ignored hr
      | close => cases h; exact .stopped .close hr (.inl rfl)
      | failure => cases h; exact .stopped .failure hr (.inr (.inl rfl))
      | finish => cases h; exact .stopped .finish hr (.inr (.inr rfl))
    · cases h
  | look =>
    simp only [step, look] at h
    split at h
    · cases h
    · next call hc =>
      split at h
      · next hw =>
        obtain ⟨a, ha, hy⟩ := Option.map_eq_some_iff.mp h
        cases hy
        exact .ended call a hc hw ha
      · cases h
  | expire after =>
    simp only [step, expire] at h
    split at h
    · cases h
    · next call hc =>
      split at h
      · next hw =>
        obtain ⟨hw, ha⟩ := Bool.and_eq_true_iff.mp hw
        cases h
        exact .expired after call hc hw (Option.isNone_iff_eq_none.mp ha)
      · cases h
  | close =>
    simp only [step, close] at h
    split at h
    · cases h
    · next hc => cases h; exact .closed hc

/-- A message that ends with a reply had it in its mail. -/
theorem mail_of_verdict {call : Call} {r : String} (h : c.verdict? call = some (.ok r)) :
    call.mail = some (.ok r) := by
  unfold verdict? at h
  split at h
  · next a ha => rw [ha, h]
  · split at h <;> cases h

/-- A frame that is given away leaves the slot empty. -/
theorem slot_deliver (c : Client) (a : Answer) : (c.deliver a).slot = none := by
  rw [deliver]
  split
  · assumption
  · rfl

@[simp] theorem isOpen_deliver (c : Client) (a : Answer) : (c.deliver a).isOpen = c.isOpen := by
  rw [deliver]
  split <;> rfl

@[simp] theorem reading_deliver (c : Client) (a : Answer) : (c.deliver a).reading = c.reading := by
  rw [deliver]
  split <;> rfl

/-- A frame that is given away goes to the message under way if its ticket is in the slot. -/
theorem call_deliver (c : Client) (a : Answer) :
    (c.deliver a).call = c.call.map fun call =>
      if c.slot = some call.ticket then { call with mail := some a } else call := by
  rw [deliver]
  split
  · next hs => simp [hs]
  · next ticket hs =>
    rw [hs]
    simp only [Option.some.injEq, eq_comm]

end Client

end LoadRig.Socket
