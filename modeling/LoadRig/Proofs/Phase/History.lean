import LoadRig.Proofs.Phase.Books
/-!
# What went through the queue of a phase

A run of a phase has a history: the messages that were put into the queue, in order, and those that
were taken out, in order and each with the sender that took it. Messages may be equal to each other,
so it is places that are counted and not messages. What was taken, whoever took it, is a beginning of
what was put in: the message in a place of the one list went to the sender in the same place of the
other, and to nobody else.

## Main definitions

* `LoadRig.Phase.putIn`, `LoadRig.Phase.takenOut` — the history of a run.

## Main results

* `LoadRig.Phase.content_steps` — what was taken and what is left is what was put in.
* `LoadRig.Phase.countP_takenOut` — the senders have counted their parts of the history.
-/

namespace LoadRig

open LoadRig.Random

namespace Phase

variable {σ : Type} [WordSource σ]

/-- What a move puts into the queue. -/
def putBy (p : Phase σ) : PhaseMove → List WorkItem
  | .produce => p.producer.puts p.shared.instant p.shared.queue
  | _ => []

/-- What a move takes from the queue, with the place of the sender that takes it. -/
def takenBy (p : Phase σ) : PhaseMove → List (Nat × WorkItem)
  | .sender i e =>
    match p.senders[i]? with
    | some s => (s.takes p.shared e).map (i, ·)
    | none => []
  | _ => []

/-- What the moves of a run put into the queue, in order. -/
def putIn (settings : RetrySettings) (p : Phase σ) : List PhaseMove → List WorkItem
  | [] => []
  | m :: ms =>
    match p.step settings m with
    | some p' => p.putBy m ++ p'.putIn settings ms
    | none => []

/-- What the moves of a run take from the queue, in order. -/
def takenOut (settings : RetrySettings) (p : Phase σ) : List PhaseMove → List (Nat × WorkItem)
  | [] => []
  | m :: ms =>
    match p.step settings m with
    | some p' => p.takenBy m ++ p'.takenOut settings ms
    | none => []

variable {settings : RetrySettings} {p p' : Phase σ} {m : PhaseMove} {ms : List PhaseMove}

/-! ### One move -/

/-- A move takes at the front and puts in at the back. -/
theorem content_step (h : p.step settings m = some p') :
    p.shared.queue.toList ++ p.putBy m
      = (p.takenBy m).map Prod.snd ++ p'.shared.queue.toList := by
  cases does_of_step h with
  | produce y hy => exact (Producer.content_step hy).symm
  | release hh => simp [putBy, takenBy]
  | sender i e s y hi hy =>
    obtain ⟨ended, he⟩ := Sender.entered_step hy
    have hc : p.shared.queue.toList = s.takes p.shared e ++ y.1.queue.toList := he.content
    simp [putBy, takenBy, hi, hc, Function.comp_def]
  | stop => simp [putBy, takenBy]
  | advance now hn => simp [putBy, takenBy]

/-- A sender counts what it takes, and nobody else does. -/
theorem processed_step (h : p.step settings m = some p') (i : Nat) :
    (p'.senders[i]?.map Sender.processed).getD 0
      = (p.senders[i]?.map Sender.processed).getD 0 + (p.takenBy m).countP (·.1 == i) := by
  cases does_of_step h with
  | produce | release | stop | advance => rfl
  | sender j e s y hj hy =>
    obtain ⟨ended, he⟩ := Sender.entered_step hy
    obtain ⟨hlt, rfl⟩ := List.getElem?_eq_some_iff.mp hj
    by_cases hij : j = i
    · subst hij
      simp [takenBy, hlt, he.processed_eq, List.countP_map, Function.comp_def]
    · simp [takenBy, hlt, hij, List.countP_map, Function.comp_def]

/-! ### Whole runs -/

theorem steps_cons (h : p.steps settings (m :: ms) = some p') :
    ∃ q, p.step settings m = some q ∧ q.steps settings ms = some p' :=
  Option.bind_eq_some_iff.mp h

/-- **What was taken and what is left is what was put in**, in this order. -/
theorem content_steps (h : p.steps settings ms = some p') :
    p.shared.queue.toList ++ p.putIn settings ms
      = (p.takenOut settings ms).map Prod.snd ++ p'.shared.queue.toList := by
  induction ms generalizing p with
  | nil =>
    rw [← Option.some.inj h]
    simp [putIn, takenOut]
  | cons m ms ih =>
    obtain ⟨q, hq, hrest⟩ := steps_cons h
    simp only [putIn, takenOut, hq, List.map_append]
    calc p.shared.queue.toList ++ (p.putBy m ++ q.putIn settings ms)
        = (p.takenBy m).map Prod.snd ++ (q.shared.queue.toList ++ q.putIn settings ms) := by
          rw [← List.append_assoc, content_step hq, List.append_assoc]
      _ = (p.takenBy m).map Prod.snd ++
            ((q.takenOut settings ms).map Prod.snd ++ p'.shared.queue.toList) := by rw [ih hrest]
      _ = _ := (List.append_assoc ..).symm

/-- Every sender has counted what it took. -/
theorem countP_takenOut (h : p.steps settings ms = some p') (i : Nat) :
    (p'.senders[i]?.map Sender.processed).getD 0
      = (p.senders[i]?.map Sender.processed).getD 0
        + (p.takenOut settings ms).countP (·.1 == i) := by
  induction ms generalizing p with
  | nil => rw [← Option.some.inj h]; rfl
  | cons m ms ih =>
    obtain ⟨q, hq, hrest⟩ := steps_cons h
    simp only [takenOut, hq, List.countP_append]
    rw [ih hrest, processed_step hq, Nat.add_assoc]

end Phase

end LoadRig
