import Mathlib.Data.List.TakeWhile
/-!
# What is next in a text

A run of characters that pass a test ends where the next character does not pass it, or where there is
none. Readers that take off such runs depend on the rest in no other way.

## Main definitions

* `LoadRig.Text.NoneAhead` — no character at the front of a text passes a test.

## Main results

* `LoadRig.Text.takeWhile_append_of_noneAhead` — where a run ends.
-/

namespace LoadRig.Text

variable {p : Char → Bool} {c : Char} {cs rest : List Char}

/-- No character at the front of a text passes a test. -/
def NoneAhead (p : Char → Bool) (rest : List Char) : Prop := ∀ c ∈ rest.head?, p c = false

theorem noneAhead_nil : NoneAhead p [] := nofun

theorem noneAhead_cons (h : p c = false) : NoneAhead p (c :: rest) := by
  intro d hd
  rwa [← Option.some.inj hd]

theorem mem_head?_append (h : c ∈ (cs ++ rest).head?) : c ∈ cs.head? ∨ c ∈ rest.head? := by
  cases cs with
  | nil => exact .inr h
  | cons c' cs => exact .inl h

theorem NoneAhead.append (hcs : NoneAhead p cs) (hrest : NoneAhead p rest) :
    NoneAhead p (cs ++ rest) := fun c hc => (mem_head?_append hc).elim (hcs c) (hrest c)

/-- A run of characters that pass a test ends where none of them is next. -/
theorem takeWhile_append_of_noneAhead (hcs : ∀ c ∈ cs, p c = true) (hrest : NoneAhead p rest) :
    (cs ++ rest).takeWhile p = cs ∧ (cs ++ rest).dropWhile p = rest := by
  rw [List.takeWhile_append_of_pos hcs, List.dropWhile_append_of_pos hcs]
  cases rest with
  | nil => simp
  | cons c rest =>
    have hc : ¬ p c = true := by simp [hrest c rfl]
    rw [List.takeWhile_cons_of_neg hc, List.dropWhile_cons_of_neg hc, List.append_nil]
    exact ⟨rfl, rfl⟩

end LoadRig.Text
