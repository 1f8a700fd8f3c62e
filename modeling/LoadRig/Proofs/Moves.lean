/-!
# Moves, one after the other

A system is given by what a move makes of its state, where a move that cannot happen makes nothing
of it. What every move keeps is kept by every list of moves. Where the moves themselves leave no
trace in the state, what is kept may speak of the moves so far.

## Main definitions

* `LoadRig.Moves.follow` — what a list of moves makes of a state.

## Main results

* `LoadRig.Moves.history` — what holds of the moves so far and the state that they lead to.
* `LoadRig.Moves.invariant` — what holds of every state.
* `LoadRig.Moves.exists_turn` — the move by which something has come to hold.
-/

namespace LoadRig.Moves

variable {σ μ : Type} {step : σ → μ → Option σ} {s s' : σ} {ms : List μ}

/-- What a list of moves makes of a state. -/
def follow (step : σ → μ → Option σ) (s : σ) : List μ → Option σ
  | [] => some s
  | m :: ms => (step s m).bind fun s => follow step s ms

theorem follow_append {ns : List μ} (h : follow step s ms = some s') :
    follow step s (ms ++ ns) = follow step s' ns := by
  induction ms generalizing s with
  | nil => rw [← Option.some.inj h, List.nil_append]
  | cons m ms ih =>
    obtain ⟨t, ht, hrest⟩ := Option.bind_eq_some_iff.mp h
    rw [List.cons_append, follow, ht]
    exact ih hrest

/-- Induction over a list of moves that come after the moves `before`. -/
theorem history {P : List μ → σ → Prop} (before : List μ)
    (hstep : ∀ ms s m s', P ms s → step s m = some s' → P (ms ++ [m]) s')
    (h : follow step s ms = some s') (hs : P before s) : P (before ++ ms) s' := by
  induction ms generalizing s before with
  | nil =>
    rw [← Option.some.inj h, List.append_nil]
    exact hs
  | cons m ms ih =>
    obtain ⟨t, ht, hrest⟩ := Option.bind_eq_some_iff.mp h
    rw [List.append_cons]
    exact ih _ hrest (hstep before s m t hs ht)

/-- What every move keeps holds at the end if it holds at the beginning. -/
theorem invariant {P : σ → Prop} (hstep : ∀ s m s', P s → step s m = some s' → P s')
    (h : follow step s ms = some s') (hs : P s) : P s' :=
  history (P := fun _ => P) [] (fun _ => hstep) h hs

/-- What holds at the end and not at the beginning has come to hold by one of the moves. -/
theorem exists_turn {P : σ → Prop} (h : follow step s ms = some s') (hs : ¬ P s) (hs' : P s') :
    ∃ before m after t t', ms = before ++ m :: after ∧ follow step s before = some t ∧
      step t m = some t' ∧ follow step t' after = some s' ∧ ¬ P t ∧ P t' := by
  induction ms generalizing s with
  | nil => exact absurd (Option.some.inj h ▸ hs') hs
  | cons m ms ih =>
    obtain ⟨t, ht, hrest⟩ := Option.bind_eq_some_iff.mp h
    by_cases hPt : P t
    · exact ⟨[], m, ms, s, t, rfl, rfl, ht, hrest, hs, hPt⟩
    · obtain ⟨before, n, after, u, u', rfl, hu, hstep, hafter, hPu, hPu'⟩ := ih hrest hPt
      refine ⟨m :: before, n, after, u, u', rfl, ?_, hstep, hafter, hPu, hPu'⟩
      rw [follow, ht]
      exact hu

end LoadRig.Moves
