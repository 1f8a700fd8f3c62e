import LoadRig.Proofs.Phase.Progress
import LoadRig.Proofs.Sender.Told
/-!
# Phases that have been told to stop

From the moment at which a phase is told to stop, whatever happens after it and in whatever order,
no item is taken from the queue any more, and each sender brings to an end at most the item that it
then has in its hand. What a sender has recorded since then, which attempts it has begun and with
which reason it leaves depends on how it stood at that moment: `Sender.Fate`, `Sender.ready?` and
`Sender.exitWhenTold` say how. The facts about one sender are about all moves of the phase, its own
and those of others; `told_sender_steps` is the induction over them.

Nobody has to make haste. A sender whose pause is cut short by the sign may have its turn when the
pause would be over anyway, and then goes on to the next attempt. A run is `Timely` if time does not
go by beyond the end of a pause that has been cut short; in such a run an attempt is begun only if
the sender was ready for it at the moment of the sign.

## Main definitions

* `LoadRig.Phase.shown` — what the moves of a run show, such as `recordedBy` and `begunBy`.
* `LoadRig.Phase.Throughout` — what holds of every move of a run, such as `Timely`, `Prompt` and
  `WindsUp`.
* `LoadRig.Phase.Told` — a phase that has been told to stop.
* `LoadRig.Phase.Interrupted` — what becomes of it.

## Main results

* `LoadRig.Phase.Told.fate_steps`, `LoadRig.Phase.Told.begun_steps`, `LoadRig.Phase.Told.exit_steps`
* `LoadRig.Phase.Told.timely_of_prompt` — the runs of a prompt driver are timely.
* `LoadRig.Phase.Told.winds_up` — a phase that has been told to stop comes to its end at once.
* `LoadRig.Phase.Told.interrupted` — what becomes of every phase that has been told to stop.
* `LoadRig.Phase.untidy_after_sign` — an item that is lost, and attempts that are begun anyway.
-/

namespace LoadRig

open LoadRig.Random

namespace Phase

variable {σ α : Type}

/-! ### What is seen of a run -/

/-- The entries of one sender in a list of entries with the places of the senders. -/
def entriesOf (i : Nat) (l : List (Nat × α)) : List α := (l.filter (·.1 == i)).map (·.2)

theorem entriesOf_append (i : Nat) (l l' : List (Nat × α)) :
    entriesOf i (l ++ l') = entriesOf i l ++ entriesOf i l' := by
  simp [entriesOf]

theorem entriesOf_self (i : Nat) (l : List α) : entriesOf i (l.map (i, ·)) = l := by
  simp [entriesOf, List.filter_map, Function.comp_def]

theorem entriesOf_other {i j : Nat} (h : j ≠ i) (l : List α) : entriesOf i (l.map (j, ·)) = [] := by
  simp [entriesOf, List.filter_map, Function.comp_def, h]

/-- The records that a move adds, with the place of the sender that adds them. -/
def recordedBy (p : Phase σ) : PhaseMove → Phase σ → List (Nat × SampleRecord)
  | .sender i _, q => (q.shared.pool.records.drop p.shared.pool.records.length).map (i, ·)
  | _, _ => []

/-- The attempt that a move begins, with the place of the sender that begins it. -/
def begunBy (p : Phase σ) : PhaseMove → Phase σ → List (Nat × Nat)
  | .sender i _, q =>
    match p.senders[i]?, q.senders[i]? with
    | some s, some s' => (s.begins? s').toList.map (i, ·)
    | _, _ => []
  | _, _ => []

/-- How the first opening of a sender has ended that came to an end in a list of moves. -/
def opened? (i : Nat) (ms : List PhaseMove) : Option (Except ConnectError Unit) :=
  ms.findSome? fun
    | .sender j e => if j = i then e.opening? else none
    | _ => none

section Moves

variable {m : PhaseMove} {i : Nat}

theorem opened?_cons (i : Nat) (m : PhaseMove) (ms : List PhaseMove) :
    opened? i (m :: ms) = (opened? i [m]).or (opened? i ms) := by
  simp only [opened?, List.findSome?_cons, List.findSome?_nil]
  split <;> rfl

theorem opened?_self (i : Nat) (e : SenderEvent) : opened? i [.sender i e] = e.opening? := by
  simp only [opened?, List.findSome?_cons, List.findSome?_nil, if_true]
  split <;> simp_all

theorem opened?_other (h : ∀ e, m ≠ .sender i e) : opened? i [m] = none := by
  cases m with
  | sender j e =>
    have hne : j ≠ i := fun hj => h e (hj ▸ rfl)
    simp [opened?, hne]
  | produce | release | stop | advance => rfl

theorem entriesOf_recordedBy (h : ∀ e, m ≠ .sender i e) (p q : Phase σ) :
    entriesOf i (p.recordedBy m q) = [] := by
  cases m with
  | sender j e => exact entriesOf_other (fun hj => h e (by rw [hj])) _
  | produce | release | stop | advance => rfl

theorem entriesOf_begunBy (h : ∀ e, m ≠ .sender i e) (p q : Phase σ) :
    entriesOf i (p.begunBy m q) = [] := by
  cases m with
  | sender j e =>
    rw [begunBy]
    split
    · exact entriesOf_other (fun hj => h e (by rw [hj])) _
    · rfl
  | produce | release | stop | advance => rfl

end Moves

/-- Time does not go by beyond the end of a pause that is not over. -/
def Timely (p : Phase σ) : PhaseMove → Prop
  | .advance now => ∀ s ∈ p.senders, ∀ deadline, s.deadline? = some deadline →
      p.shared.now < deadline → now < deadline
  | _ => True

/-- A move by which a phase goes on at once that has been told to stop, where `answers` is what the
far side answers to each sender. No time goes by, nobody is brought down and no link is lost. -/
def WindsUp (answers : Nat → FarSide) (p : Phase σ) : PhaseMove → Prop
  | .produce | .release => True
  | .sender i e => ∃ s, p.senders[i]? = some s ∧ s.windsUp (answers i) = some e
  | .stop | .advance _ => False

section Runs

variable [WordSource σ]

/-- What the moves of a run show, where `f` says what one move shows. -/
def shown (settings : RetrySettings) (f : Phase σ → PhaseMove → Phase σ → List α) (p : Phase σ) :
    List PhaseMove → List α
  | [] => []
  | m :: ms =>
    match p.step settings m with
    | some q => f p m q ++ q.shown settings f ms
    | none => []

/-- What holds of every move of a run, each in the state in which it is made. -/
def Throughout (settings : RetrySettings) (P : Phase σ → PhaseMove → Prop) (p : Phase σ) :
    List PhaseMove → Prop
  | [] => True
  | m :: ms => P p m ∧ ∀ q, p.step settings m = some q → q.Throughout settings P ms

variable {settings : RetrySettings} {p q r : Phase σ} {m : PhaseMove} {ms : List PhaseMove}
  {i : Nat} {s s' : Sender}

/-- Time goes by only while nobody has anything to do. -/
def Prompt (p : Phase σ) : PhaseMove → Prop
  | .advance now => p.mayAdvance now = true
  | _ => True

theorem shown_cons {f : Phase σ → PhaseMove → Phase σ → List α} (h : p.step settings m = some q)
    (ms : List PhaseMove) :
    p.shown settings f (m :: ms) = f p m q ++ q.shown settings f ms := by
  simp only [shown, h]

theorem throughout_append {P : Phase σ → PhaseMove → Prop} {ns : List PhaseMove}
    (h : p.steps settings ms = some q) (hp : p.Throughout settings P ms)
    (hq : q.Throughout settings P ns) : p.Throughout settings P (ms ++ ns) := by
  induction ms generalizing p with
  | nil =>
    rw [← Option.some.inj h] at hq
    exact hq
  | cons m ms ih =>
    obtain ⟨p', hp', hrest⟩ := steps_cons h
    refine ⟨hp.1, fun p'' hp'' => ?_⟩
    obtain rfl : p' = p'' := Option.some.inj (hp'.symm.trans hp'')
    exact ih hrest (hp.2 p' hp')

theorem throughout_of_append {P : Phase σ → PhaseMove → Prop} {ns : List PhaseMove}
    (h : p.steps settings ms = some q) (hp : p.Throughout settings P (ms ++ ns)) :
    q.Throughout settings P ns := by
  induction ms generalizing p with
  | nil =>
    rw [← Option.some.inj h]
    exact hp
  | cons m ms ih =>
    obtain ⟨p', hp', hrest⟩ := steps_cons h
    exact ih hrest (hp.2 p' hp')

/-- A prompt driver lets no time go by while a sender makes a pause that has been cut short. -/
theorem timely_of_mayAdvance {now : Moment} (hstop : p.shared.stopping = true)
    (h : p.mayAdvance now = true) : p.Timely (.advance now) := by
  intro s hs deadline hd
  have hrests := List.all_eq_true.mp (Bool.and_eq_true_iff.mp h).2 s hs
  unfold Sender.deadline? at hd
  split at hd
  · next t hst =>
    split at hd
    · next e d hr => simp [restful, hst, hr, hstop] at hrests
    · cases hd
  · cases hd

/-- What a sender is ready for does not change while its pause goes on. -/
theorem ready?_advance {now : Moment} (h : p.step settings (.advance now) = some q)
    (ht : p.Timely (.advance now)) (hs : s ∈ p.senders) :
    s.ready? now = s.ready? p.shared.now := by
  have hlt : p.shared.now < now := by
    cases does_of_step h with
    | advance _ hlt => exact hlt
  unfold Sender.ready?
  split
  · rfl
  · next t hst =>
    split
    · next e deadline hr =>
      have hnow := ht s hs deadline (by simp [Sender.deadline?, hst, hr])
      have hiff : deadline ≤ now ↔ deadline ≤ p.shared.now := by
        refine ⟨fun hle => ?_, fun hle => hle.trans hlt.le⟩
        by_contra hnot
        exact absurd hle (Nat.not_le.mpr (hnow (Nat.not_le.mp hnot)))
      simp only [hiff]
    · rfl
  · rfl

/-! ### After the sign -/

/-- A phase that has been told to stop. -/
structure Told (settings : RetrySettings) (p : Phase σ) : Prop where
  steady : p.Steady settings
  stopping : p.shared.stopping = true

/-- The sign to stop is never taken back. -/
theorem stopping_step (h : p.step settings m = some q) (hs : p.shared.stopping = true) :
    q.shared.stopping = true := by
  cases does_of_step h with
  | produce | release | advance => exact hs
  | stop => rfl
  | sender i e s y hi hy =>
    obtain ⟨ended, he⟩ := Sender.entered_step hy
    exact he.stopping_eq.trans hs

theorem stopping_of_mem (h : p.steps settings ms = some q)
    (hs : p.shared.stopping = true ∨ PhaseMove.stop ∈ ms) : q.shared.stopping = true := by
  induction ms generalizing p with
  | nil =>
    rw [← Option.some.inj h]
    exact hs.resolve_right (List.not_mem_nil)
  | cons m ms ih =>
    obtain ⟨p', hp', hrest⟩ := steps_cons h
    refine ih hrest ?_
    rcases hs with hs | hmem
    · exact .inl (stopping_step hp' hs)
    · rcases List.mem_cons.mp hmem with rfl | hmem
      · cases does_of_step hp' with
        | stop => exact .inl rfl
      · exact .inr hmem

theorem told_step (h : p.step settings m = some q) (hp : p.Told settings) : q.Told settings where
  steady := steady_step h hp.steady
  stopping := stopping_step h hp.stopping

theorem told_steps (h : p.steps settings ms = some q) (hp : p.Told settings) : q.Told settings :=
  steps_induction (fun _ _ _ => told_step) h hp

/-- **A prompt driver is timely.** -/
theorem Told.timely_of_prompt (hp : p.Told settings) (h : p.Throughout settings Prompt ms) :
    p.Throughout settings Timely ms := by
  induction ms generalizing p with
  | nil => trivial
  | cons m ms ih =>
    refine ⟨?_, fun q hq => ih (told_step hq hp) (h.2 q hq)⟩
    cases m with
    | advance now => exact timely_of_mayAdvance hp.stopping h.1
    | produce | release | sender | stop => trivial

/-- A move leaves a sender as it is, or is an event of that sender. -/
theorem sender_of_step (h : p.step settings m = some q) (hi : p.senders[i]? = some s) :
    (q.senders[i]? = some s ∧ ∀ e, m ≠ .sender i e) ∨
      ∃ e t, m = .sender i e ∧ s.step settings p.shared e = some (q.shared, t) ∧
        q.senders[i]? = some t := by
  cases does_of_step h with
  | produce | release | stop | advance => exact .inl ⟨hi, nofun⟩
  | sender j e s₁ y hj hy =>
    by_cases hji : j = i
    · subst hji
      obtain rfl : s = s₁ := Option.some.inj (hi.symm.trans hj)
      have hlt := (List.getElem?_eq_some_iff.mp hi).1
      exact .inr ⟨e, y.2, rfl, hy, by simp [hlt]⟩
    · refine .inl ⟨by simp [hji, hi], ?_⟩
      rintro e' ⟨⟩
      exact hji rfl

/-- Induction over the moves of a phase that has been told to stop, for what they say about one of
its senders. -/
theorem told_sender_steps {R : Phase σ → Sender → List PhaseMove → Sender → Prop}
    (hnil : ∀ p s, R p s [] s)
    (hother : ∀ {p m q s ms s'}, p.Told settings → p.step settings m = some q →
      p.senders[i]? = some s → (∀ e, m ≠ .sender i e) → R q s ms s' → R p s (m :: ms) s')
    (hmeets : ∀ {p e q s t ms s'}, p.Told settings → p.step settings (.sender i e) = some q →
      p.senders[i]? = some s → s.step settings p.shared e = some (q.shared, t) →
      q.senders[i]? = some t → R q t ms s' → R p s (.sender i e :: ms) s')
    (hp : p.Told settings) (h : p.steps settings ms = some r) (hi : p.senders[i]? = some s) :
    ∃ s', r.senders[i]? = some s' ∧ R p s ms s' := by
  induction ms generalizing p s with
  | nil =>
    rw [← Option.some.inj h]
    exact ⟨s, hi, hnil p s⟩
  | cons m ms ih =>
    obtain ⟨q, hq, hrest⟩ := steps_cons h
    rcases sender_of_step hq hi with ⟨hi', hm⟩ | ⟨e, t, rfl, hy, hi'⟩
    · obtain ⟨s', hs', hR⟩ := ih (told_step hq hp) hrest hi'
      exact ⟨s', hs', hother hp hq hi hm hR⟩
    · obtain ⟨s', hs', hR⟩ := ih (told_step hq hp) hrest hi'
      exact ⟨s', hs', hmeets hp hq hi hy hi' hR⟩

/-! ### Items -/

/-- **No item is taken any more.** -/
theorem Told.takenOut_steps (hp : p.Told settings) (h : p.steps settings ms = some q) :
    p.takenOut settings ms = [] := by
  induction ms generalizing p with
  | nil => rfl
  | cons m ms ih =>
    obtain ⟨p', hp', hrest⟩ := steps_cons h
    have hnone : p.takenBy m = [] := by
      cases m with
      | sender i e =>
        rw [takenBy]
        split
        · rw [Sender.takes_of_stopping hp.stopping, List.map_nil]
        · rfl
      | produce | release | stop | advance => rfl
    simp only [takenOut, hp', hnone, List.nil_append]
    exact ih (told_step hp' hp) hrest

/-- Every record is of one sender. -/
theorem Told.records_steps (hp : p.Told settings) (h : p.steps settings ms = some q) :
    q.shared.pool.records
      = p.shared.pool.records ++ (p.shown settings recordedBy ms).map Prod.snd := by
  induction ms generalizing p with
  | nil =>
    rw [← Option.some.inj h]
    exact (List.append_nil _).symm
  | cons m ms ih =>
    obtain ⟨p', hp', hrest⟩ := steps_cons h
    have hone : p'.shared.pool.records
        = p.shared.pool.records ++ (p.recordedBy m p').map Prod.snd := by
      cases does_of_step hp' with
      | produce | release | stop | advance => exact (List.append_nil _).symm
      | sender i e s y hi hy =>
        obtain ⟨ended, he⟩ := Sender.entered_step hy
        simp [recordedBy, he.recorded, Function.comp_def]
    rw [ih (told_step hp' hp) hrest, hone, shown_cons hp', List.map_append, List.append_assoc]

/-- **What becomes of the item** that a sender has in its hand. -/
theorem Told.fate_steps (hp : p.Told settings) (h : p.steps settings ms = some r)
    (hi : p.senders[i]? = some s) : ∃ s', r.senders[i]? = some s' ∧
      s.Fate (entriesOf i (p.shown settings recordedBy ms)) s' := by
  refine told_sender_steps
    (R := fun p s ms s' => s.Fate (entriesOf i (p.shown settings recordedBy ms)) s')
    (fun p s => .refl s) ?hother ?hmeets hp h hi
  case hother =>
    intro p m q s ms s' hp hq hi hm hR
    rw [shown_cons hq, entriesOf_append, entriesOf_recordedBy hm]
    exact hR
  case hmeets =>
    intro p e q s t ms s' hp hq hi hy hi' hR
    obtain ⟨ended, hended, hfate⟩ := Sender.fate_step hy hp.stopping
    obtain ⟨_, he⟩ := Sender.entered_step hy
    have hone : entriesOf i (p.recordedBy (.sender i e) q) = ended := by
      simp only [recordedBy, hended, List.drop_left, entriesOf_self]
    rw [shown_cons hq, entriesOf_append, hone]
    exact hfate.trans hR he.room_eq

/-! ### Attempts -/

/-- **An attempt is begun only by a sender that was ready for it** when the sign was given, and that
sender begins no other, as long as the run is timely. -/
theorem Told.begun_steps (hp : p.Told settings) (hpos : 0 < settings.baseBackoff.toNanos)
    (h : p.steps settings ms = some r) (ht : p.Throughout settings Timely ms)
    (hi : p.senders[i]? = some s) :
    entriesOf i (p.shown settings begunBy ms) = [] ∨
      ∃ n, s.ready? p.shared.now = some n ∧ entriesOf i (p.shown settings begunBy ms) = [n] := by
  suffices hall : ∃ s', r.senders[i]? = some s' ∧ (p.Throughout settings Timely ms →
      entriesOf i (p.shown settings begunBy ms) = [] ∨
        ∃ n, s.ready? p.shared.now = some n ∧
          entriesOf i (p.shown settings begunBy ms) = [n]) by
    obtain ⟨s', -, hR⟩ := hall
    exact hR ht
  refine told_sender_steps
    (R := fun p s ms _ => p.Throughout settings Timely ms →
      entriesOf i (p.shown settings begunBy ms) = [] ∨
        ∃ n, s.ready? p.shared.now = some n ∧ entriesOf i (p.shown settings begunBy ms) = [n])
    (fun p s _ => .inl rfl) ?hother ?hmeets hp h hi
  case hother =>
    intro p m q s ms s' hp hq hi hm hR ht
    have hready : s.ready? q.shared.now = s.ready? p.shared.now := by
      cases does_of_step hq with
      | produce | release | stop => rfl
      | advance now => exact ready?_advance hq ht.1 (List.mem_of_getElem? hi)
      | sender j e s₁ y hj hy =>
        obtain ⟨_, he⟩ := Sender.entered_step hy
        exact congrArg s.ready? he.now_eq
    rw [shown_cons hq, entriesOf_append, entriesOf_begunBy hm, List.nil_append, ← hready]
    exact hR (ht.2 q hq)
  case hmeets =>
    intro p e q s t ms s' hp hq hi hy hi' hR ht
    have hnow : q.shared.now = p.shared.now := by
      obtain ⟨_, he⟩ := Sender.entered_step hy
      exact he.now_eq
    have hone : entriesOf i (p.begunBy (.sender i e) q) = (s.begins? t).toList := by
      simp only [begunBy, hi, hi', entriesOf_self]
    have hR := hR (ht.2 q hq)
    rw [hnow] at hR
    rw [shown_cons hq, entriesOf_append, hone]
    cases Sender.attempts_step hy hp.stopping with
    | begun n hb hr hr' =>
      -- after that the sender is ready for none
      have hnone : entriesOf i (q.shown settings begunBy ms) = [] := by
        rcases hR with hnone | ⟨n', hn', -⟩
        · exact hnone
        · rw [hr'] at hn'
          cases hn'
      exact .inr ⟨n, hr, by simp [hb, hnone]⟩
    | unbegun hb hr' =>
      rw [hb, Option.toList_none, List.nil_append]
      rcases hR with hnone | ⟨n, hn, hsome⟩
      · exact .inl hnone
      · rcases hr' hpos with hr' | hr'
        · rw [hr'] at hn
          cases hn
        · exact .inr ⟨n, hr' ▸ hn, hsome⟩

/-! ### Reasons -/

/-- **The reason of a sender**, as it stood when the sign was given, unless it is brought down. -/
theorem Told.exit_steps (hp : p.Told settings) (h : p.steps settings ms = some r)
    (hi : p.senders[i]? = some s) :
    ∃ s', r.senders[i]? = some s' ∧ (s.stage = .crashed → s'.stage = .crashed) ∧
      (s'.stage ≠ .crashed → ∀ later,
        s'.exitWhenTold later = s.exitWhenTold ((opened? i ms).or later)) := by
  refine told_sender_steps
    (R := fun _ s ms s' => (s.stage = .crashed → s'.stage = .crashed) ∧
      (s'.stage ≠ .crashed → ∀ later,
        s'.exitWhenTold later = s.exitWhenTold ((opened? i ms).or later)))
    (fun _ _ => ⟨id, fun _ _ => rfl⟩) ?hother ?hmeets hp h hi
  case hother =>
    intro p m q s ms s' hp hq hi hm hR
    rw [opened?_cons, opened?_other hm]
    exact hR
  case hmeets =>
    intro p e q s t ms s' hp hq hi hy hi' hR
    have hsound := hp.steady.books.sound s (List.mem_of_getElem? hi)
    refine ⟨fun hs => ?_, fun hs' later => ?_⟩
    · exact absurd hs (Sender.ne_crashed_of_isDone_eq_false (Sender.isDone_eq_false_of_step hy))
    · rw [hR.2 hs', opened?_cons, opened?_self, Option.or_assoc]
      exact Sender.exitWhenTold_step hy hp.stopping hsound (fun ht => hs' (hR.1 ht)) _

/-! ### The end -/

/-- While a phase is not done that has been told to stop, somebody can go on at once. -/
theorem Told.exists_move (hp : p.Told settings) (hd : p.isDone = false) (answers : Nat → FarSide) :
    ∃ m q, p.WindsUp answers m ∧ p.step settings m = some q ∧
      q.rank settings < p.rank settings := by
  by_cases hh : p.holding = true
  · have hstep : p.step settings .release = some _ := if_pos hh
    exact ⟨.release, _, trivial, hstep, rank_step hstep hp.steady id⟩
  by_cases hall : ∀ s ∈ p.senders, s.isDone = true
  · have hf : p.producer.finished = false := by
      have hsenders : p.senders.all (·.isDone) = true := List.all_eq_true.mpr hall
      simpa [isDone, hsenders] using hd
    obtain ⟨q, hq, -⟩ := hp.steady.released (by simpa using hh) hall hf
    exact ⟨.produce, q, trivial, hq, rank_step hq hp.steady id⟩
  · obtain ⟨s, hs, hnot⟩ : ∃ s ∈ p.senders, s.isDone = false := by
      simpa using hall
    obtain ⟨i, hi⟩ := List.mem_iff_getElem?.mp hs
    obtain ⟨e, he, hni, hy⟩ := Sender.exists_step_of_stopping settings hnot hp.stopping (answers i)
    obtain ⟨y, hy⟩ := Option.isSome_iff_exists.mp hy
    have hstep := step_sender hi hy
    refine ⟨.sender i e, _, ⟨s, hi, he⟩, hstep, rank_step hstep hp.steady ?_⟩
    rintro ⟨s₁, hi₁, hidle⟩
    obtain rfl : s = s₁ := Option.some.inj (hi.symm.trans hi₁)
    exact hni hidle

/-- **A phase that has been told to stop comes to its end at once**, whatever the far side
answers. -/
theorem Told.winds_up (hp : p.Told settings) (answers : Phase σ → Nat → FarSide) :
    ∃ ms r, p.Throughout settings (fun p => p.WindsUp (answers p)) ms ∧
      p.steps settings ms = some r ∧ r.isDone = true := by
  induction hn : p.rank settings using Nat.strongRecOn generalizing p with
  | _ n ih =>
    by_cases hd : p.isDone = true
    · exact ⟨[], p, trivial, rfl, hd⟩
    · obtain ⟨m, q, hm, hq, hlt⟩ := hp.exists_move (by simpa using hd) (answers p)
      obtain ⟨ms, r, hms, hr, hdone⟩ := ih _ (hn ▸ hlt) (told_step hq hp) rfl
      refine ⟨m :: ms, r, ⟨hm, fun q' hq' => ?_⟩, Option.bind_eq_some_iff.mpr ⟨q, hq, hr⟩, hdone⟩
      rw [hq] at hq'
      exact Option.some.inj hq' ▸ hms

/-- Nobody is brought down in this way. -/
theorem Told.not_crashed_steps (hp : p.Told settings) {answers : Phase σ → Nat → FarSide}
    (hw : p.Throughout settings (fun p => p.WindsUp (answers p)) ms)
    (h : p.steps settings ms = some r) (hi : p.senders[i]? = some s) (hs : s.stage ≠ .crashed) :
    ∃ s', r.senders[i]? = some s' ∧ s'.stage ≠ .crashed := by
  suffices hall : ∃ s', r.senders[i]? = some s' ∧
      (p.Throughout settings (fun p => p.WindsUp (answers p)) ms →
        s.stage ≠ .crashed → s'.stage ≠ .crashed) by
    obtain ⟨s', hs', hR⟩ := hall
    exact ⟨s', hs', hR hw hs⟩
  refine told_sender_steps
    (R := fun p s ms s' => p.Throughout settings (fun p => p.WindsUp (answers p)) ms →
      s.stage ≠ .crashed → s'.stage ≠ .crashed)
    (fun _ _ _ hs => hs) ?hother ?hmeets hp h hi
  case hother => exact fun _ hq _ _ hR hw => hR (hw.2 _ hq)
  case hmeets =>
    intro p e q s t ms s' hp hq hi hy hi' hR hw hs
    obtain ⟨s₁, hi₁, he⟩ := hw.1
    exact hR (hw.2 q hq) (Sender.ne_crashed_of_step hy (Sender.ne_crashed_of_windsUp he))

/-! ### What becomes of a phase that has been told to stop -/

/-- What the moves `ns` make of a phase `q` that has been told to stop. -/
structure Interrupted (settings : RetrySettings) (q : Phase σ) (ns : List PhaseMove)
    (r : Phase σ) : Prop where
  stopping : r.shared.stopping = true
  /-- Nothing is taken from the queue, however much there is. -/
  taken : q.takenOut settings ns = []
  /-- A sender at the queue retires at its next look. -/
  looks : ∀ i (s : Sender), r.senders[i]? = some s → s.stage = .waiting →
    r.step settings (.sender i .looked)
      = some { r with senders := r.senders.set i (s.retire .shutdown) }
  records : r.shared.pool.records
    = q.shared.pool.records ++ (q.shown settings recordedBy ns).map Prod.snd
  /-- Each sender ends at most the item in its hand, and records it once. -/
  fates : ∀ i (s : Sender), q.senders[i]? = some s → ∃ s', r.senders[i]? = some s' ∧
    s.Fate (entriesOf i (q.shown settings recordedBy ns)) s'
  /-- An attempt is begun only by a sender that has repaired its connection for its first one, or
  whose pause is over. -/
  begins : ∀ m (r' : Phase σ) (i n : Nat) (s s' : Sender), r.step settings m = some r' →
    r.senders[i]? = some s → r'.senders[i]? = some s' → s.begins? s' = some n →
    s.ready? r.shared.now = some n
  /-- In a timely run it was ready for that attempt when the sign was given. -/
  begun : 0 < settings.baseBackoff.toNanos → q.Throughout settings Timely ns →
    ∀ i (s : Sender), q.senders[i]? = some s → entriesOf i (q.shown settings begunBy ns) = [] ∨
      ∃ n, s.ready? q.shared.now = some n ∧ entriesOf i (q.shown settings begunBy ns) = [n]
  exits : ∀ i (s s' : Sender) exit, q.senders[i]? = some s → r.senders[i]? = some s' →
    s'.exit? = some exit → exit = s.exitWhenTold (opened? i ns)
  /-- The phase comes to its end without any delay; then every sender that has not been brought down
  has recorded what it had in its hand, and has left. -/
  ends : ∀ answers : Phase σ → Nat → FarSide, ∃ ns' r',
    r.Throughout settings (fun p => p.WindsUp (answers p)) ns' ∧
      r.steps settings ns' = some r' ∧ r'.isDone = true ∧
      ∀ i (s t : Sender), q.senders[i]? = some s → r.senders[i]? = some t → t.stage ≠ .crashed →
        ∃ s', r'.senders[i]? = some s' ∧
          s'.stage = .left (s.exitWhenTold (opened? i (ns ++ ns'))) ∧
          (entriesOf i (q.shown settings recordedBy (ns ++ ns'))).map (·.kind)
            = (s.inHand?.map (·.kind)).toList

/-- A sender that leaves or has left does so with its reason. -/
theorem Told.exit?_steps (hp : p.Told settings) (h : p.steps settings ms = some r)
    (hi : p.senders[i]? = some s) (hi' : r.senders[i]? = some s') {exit : SenderExit}
    (hexit : s'.exit? = some exit) : exit = s.exitWhenTold (opened? i ms) := by
  obtain ⟨s₁, hs₁, -, hreason⟩ := hp.exit_steps h hi
  obtain rfl : s' = s₁ := Option.some.inj (hi'.symm.trans hs₁)
  have hwhen := hreason (fun hs => by simp [Sender.exit?, hs] at hexit) none
  rw [Option.or_none] at hwhen
  rw [← hwhen]
  unfold Sender.exit? at hexit
  split at hexit
  · next e hs => simpa [Sender.exitWhenTold, hs] using hexit.symm
  · next e hs => simpa [Sender.exitWhenTold, hs] using hexit.symm
  · cases hexit

/-- A sender that is done and has not been brought down has left. -/
theorem exists_left (hd : s.isDone = true) (hs : s.stage ≠ .crashed) :
    ∃ exit, s.stage = .left exit := by
  cases hst : s.stage with
  | left exit => exact ⟨exit, rfl⟩
  | crashed => exact absurd hst hs
  | dialing | waiting | repairing | trying | closing => simp [Sender.isDone, hst] at hd

theorem Told.begins_step (hp : p.Told settings) (h : p.step settings m = some r)
    (hi : p.senders[i]? = some s) (hi' : r.senders[i]? = some s') {n : Nat}
    (hb : s.begins? s' = some n) : s.ready? p.shared.now = some n := by
  rcases sender_of_step h hi with ⟨hsame, -⟩ | ⟨e, t, -, hy, ht⟩
  · obtain rfl : s = s' := Option.some.inj (hsame.symm.trans hi')
    simp [Sender.begins?] at hb
  · obtain rfl : t = s' := Option.some.inj (ht.symm.trans hi')
    cases Sender.attempts_step hy hp.stopping with
    | begun n' hb' hr =>
      rw [hb] at hb'
      exact hb' ▸ hr
    | unbegun hb' =>
      rw [hb] at hb'
      cases hb'

/-- **Whatever happens to a phase that has been told to stop**, and in whatever order. -/
theorem Told.interrupted (hq : q.Told settings) {ns : List PhaseMove}
    (h : q.steps settings ns = some r) : q.Interrupted settings ns r := by
  have hr : r.Told settings := told_steps h hq
  constructor
  case stopping => exact hr.stopping
  case taken => exact hq.takenOut_steps h
  case looks =>
    intro i s hi hs
    refine step_sender (y := (r.shared, s.retire .shutdown)) hi ?_
    simp [Sender.step, Sender.look, hs, hr.stopping]
  case records => exact hq.records_steps h
  case fates => exact fun _ _ => hq.fate_steps h
  case begins => exact fun _ _ _ _ _ _ hstep hi hi' => hr.begins_step hstep hi hi'
  case begun => exact fun hpos ht _ _ => hq.begun_steps hpos h ht
  case exits => exact fun _ _ _ _ hi hi' => hq.exit?_steps h hi hi'
  case ends =>
    intro answers
    obtain ⟨ns', r', hw, hns', hdone⟩ := hr.winds_up answers
    refine ⟨ns', r', hw, hns', hdone, fun i s t hi ht hnot => ?_⟩
    have hall := steps_append h hns'
    obtain ⟨s', hi', hnot'⟩ := hr.not_crashed_steps hw hns' ht hnot
    obtain ⟨exit, hleft⟩ := exists_left (isDone_of_mem hdone (List.mem_of_getElem? hi')) hnot'
    obtain ⟨s₁, hs₁, hfate⟩ := hq.fate_steps hall hi
    obtain rfl : s' = s₁ := Option.some.inj (hi'.symm.trans hs₁)
    have hexit : s'.exit? = some exit := by simp [Sender.exit?, hleft]
    exact ⟨s', hi', hq.exit?_steps hall hi hi' hexit ▸ hleft, hfate.kinds_of_left hleft⟩

end Runs

/-! ### Loose ends -/

/-- The only sender has one message acknowledged over a link that closes, takes the other one and
repairs its connection for it when it is told to stop. -/
def heldUp : List PhaseMove :=
  [.release, .produce, .sender 0 (.dialed (.ok ())), .sender 0 .looked,
    .sender 0 (.replied (.ok "ok") false), .produce, .sender 0 .looked, .stop]

/-- The phase that is told to stop while its sender has a message in its hand. -/
def soloHeldUp : Phase WordStream := (solo.steps soloSettings heldUp).get (by decide)

/-- Two attempts at each message, with a pause of ten milliseconds between them. -/
def pausingSettings : RetrySettings := { soloSettings with baseBackoff := .ofMillis 10 }

/-- The first attempt of the only sender fails. -/
def stumble : List PhaseMove :=
  [.release, .produce, .sender 0 (.dialed (.ok ())), .sender 0 .looked,
    .sender 0 (.replied (.error .closed) false)]

/-- The phase that is told to stop while its sender makes a pause. -/
def soloPausing : Phase WordStream :=
  (solo.steps pausingSettings (stumble ++ [.stop])).get (by decide)

/-- The phase that is told to stop at the moment at which the pause of its sender is over. -/
def soloRested : Phase WordStream :=
  (solo.steps pausingSettings (stumble ++ [.advance 10000000, .stop])).get (by decide)

/-- A sender that is brought down records nothing of what it had in its hand, and leaves without a
reason. And an attempt may be begun after the sign that is not the first one: where the sender has
its turn after the end of its pause, or where the pause was over when the sign was given. -/
theorem untidy_after_sign :
    (soloHeldUp.shared.stopping = true ∧
      soloHeldUp.senders.map (·.inHand?.isSome) = [true] ∧
      ((soloHeldUp.steps soloSettings [.sender 0 .crashed, .produce]).map fun r =>
        (r.isDone, r.senders.map (·.exit?))) = some (true, [none]) ∧
      soloHeldUp.shown soloSettings recordedBy [.sender 0 .crashed, .produce] = []) ∧
    (soloPausing.shared.stopping = true ∧ soloPausing.shared.now = 0 ∧
      soloPausing.senders.map (·.deadline?) = [some 10000000] ∧
      soloPausing.shown pausingSettings begunBy [.advance 10000000, .sender 0 .rested] = [(0, 1)]) ∧
    soloRested.shared.stopping = true ∧
      soloRested.shown pausingSettings begunBy [.sender 0 .rested] = [(0, 1)] := by
  decide

end Phase

end LoadRig
