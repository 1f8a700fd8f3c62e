import LoadRig.Text.Fields
/-!
# Fields put together and cut again

A text that is put together from fields is cut into the same fields again, if none of them holds a
separator. There must be at least one: the text of no fields and that of one empty field are the same.

## Main results

* `LoadRig.Text.fields_joined` — fields put together and cut again.
* `LoadRig.Text.of_mem_fields` — what stands in a field.
-/

namespace LoadRig.Text

variable {p : Char → Bool} {s : Char} {cs f : List Char} {fs : List (List Char)}

theorem fields_cons_of_not {c : Char} (hc : p c = false) (h : fields p cs = f :: fs) :
    fields p (c :: cs) = (c :: f) :: fs := by
  rw [fields, hc, if_neg Bool.false_ne_true, h]

/-- A field that a separator follows is the first one. -/
theorem fields_append_cons (hf : ∀ c ∈ f, p c = false) (hs : p s = true) :
    fields p (f ++ s :: cs) = f :: fields p cs := by
  induction f with
  | nil => rw [List.nil_append, fields, if_pos hs]
  | cons c f ih =>
    obtain ⟨hc, hf⟩ := List.forall_mem_cons.mp hf
    exact fields_cons_of_not hc (ih hf)

/-- A text without separators is one field. -/
theorem fields_of_none (hf : ∀ c ∈ f, p c = false) : fields p f = [f] := by
  induction f with
  | nil => rfl
  | cons c f ih =>
    obtain ⟨hc, hf⟩ := List.forall_mem_cons.mp hf
    exact fields_cons_of_not hc (ih hf)

/-- **Fields that are put together are cut again.** -/
theorem fields_joined (hs : p s = true) (hne : fs ≠ []) (hf : ∀ f ∈ fs, ∀ c ∈ f, p c = false) :
    fields p (joined s fs) = fs := by
  induction fs with
  | nil => exact absurd rfl hne
  | cons f fs ih =>
    obtain ⟨hfirst, hrest⟩ := List.forall_mem_cons.mp hf
    cases fs with
    | nil => exact fields_of_none hfirst
    | cons g gs =>
      rw [joined, fields_append_cons hfirst hs, ih (List.cons_ne_nil g gs) hrest]
      exact List.cons_ne_nil g gs

/-- A field holds characters of the text, and no separators. -/
theorem of_mem_fields (h : f ∈ fields p cs) : ∀ c ∈ f, c ∈ cs ∧ p c = false := by
  induction cs generalizing f with
  | nil =>
    obtain rfl : f = [] := List.mem_singleton.mp h
    nofun
  | cons c cs ih =>
    have hold : ∀ g ∈ fields p cs, ∀ x ∈ g, x ∈ c :: cs ∧ p x = false := fun g hg x hx =>
      ⟨List.mem_cons_of_mem c (ih hg x hx).1, (ih hg x hx).2⟩
    cases hc : p c with
    | true =>
      rw [fields, if_pos hc] at h
      rcases List.mem_cons.mp h with rfl | h
      · nofun
      · exact hold f h
    | false =>
      obtain ⟨g, gs, hg⟩ := List.exists_cons_of_ne_nil (fields_ne_nil p cs)
      rw [fields_cons_of_not hc hg] at h
      rw [hg] at hold
      rcases List.mem_cons.mp h with rfl | h
      · intro x hx
        rcases List.mem_cons.mp hx with rfl | hx
        · exact ⟨List.mem_cons_self, hc⟩
        · exact hold g List.mem_cons_self x hx
      · exact hold f (List.mem_cons_of_mem g h)

/-- What is put together holds the separator and what the fields hold. -/
theorem mem_joined {c : Char} (h : c ∈ joined s fs) : c = s ∨ ∃ f ∈ fs, c ∈ f := by
  induction fs with
  | nil => cases h
  | cons f fs ih =>
    cases fs with
    | nil => exact .inr ⟨f, List.mem_cons_self, h⟩
    | cons g gs =>
      rw [joined] at h
      · rcases List.mem_append.mp h with h | h
        · exact .inr ⟨f, List.mem_cons_self, h⟩
        · rcases List.mem_cons.mp h with h | h
          · exact .inl h
          · rcases ih h with rfl | ⟨k, hk, hc⟩
            · exact .inl rfl
            · exact .inr ⟨k, List.mem_cons_of_mem f hk, hc⟩
      · exact List.cons_ne_nil g gs

end LoadRig.Text
