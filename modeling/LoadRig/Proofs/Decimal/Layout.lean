import LoadRig.Decimal.Layout
import LoadRig.Proofs.Text.Digits
/-!
# The characters of a number

Which characters a double is written with does not depend on its value. They are digits, a point, a
minus sign and the letter of an exponent, and whatever the layout adds: its sign before an exponent
and its names of the special values. A property of characters that all of these have is had by every
character of every double. That is enough to see that a number cannot be taken for something else.

## Main results

* `LoadRig.Text.forall_mem_intDigits` — the characters of an integer.
* `LoadRig.Decimal.Layout.forall_mem_text` — the characters of a double.
-/

namespace LoadRig

open LoadRig.Text

variable {P : Char → Prop}

theorem Text.forall_mem_intDigits (hdigit : ∀ c, c.isDigit = true → P c) (hminus : P '-')
    (n : Int) : ∀ c ∈ intDigits n, P c := by
  intro c hc
  cases n with
  | ofNat n => exact hdigit c (isDigit_of_mem_digits hc)
  | negSucc n =>
    rcases List.mem_cons.mp hc with rfl | hc
    · exact hminus
    · exact hdigit c (isDigit_of_mem_digits hc)

namespace Decimal.Layout

variable {l : Layout}

/-- The characters of digits with a point or an exponent. -/
theorem forall_mem_place (hdigit : ∀ c, c.isDigit = true → P c) (hpoint : P '.') (hminus : P '-')
    (hexponent : P 'e') (hplus : ∀ c ∈ l.plus, P c) (s : Scientific) : ∀ c ∈ l.place s, P c := by
  have hds : ∀ c ∈ digits s.coefficient, P c := fun c hc => hdigit c (isDigit_of_mem_digits hc)
  have hzero : P '0' := hdigit '0' (by decide)
  have hzeros : ∀ n, ∀ c ∈ List.replicate n '0', P c := by
    intro n c hc
    rw [List.eq_of_mem_replicate hc]
    exact hzero
  unfold place
  dsimp only
  generalize digits s.coefficient = ds at hds ⊢
  split
  · -- one digit, the rest of them behind a point, and the exponent
    rw [List.forall_mem_append, List.forall_mem_append, List.forall_mem_cons]
    refine ⟨⟨?_, hexponent, ?_⟩, forall_mem_intDigits hdigit hminus _⟩
    · match ds, hds with
      | [], _ => exact fun c hc => absurd hc List.not_mem_nil
      | [d], h => exact h
      | d :: d' :: ds, h =>
        rw [List.forall_mem_cons] at h
        exact List.forall_mem_cons.mpr ⟨h.1, List.forall_mem_cons.mpr ⟨hpoint, h.2⟩⟩
    · split
      · exact hplus
      · exact fun c hc => absurd hc List.not_mem_nil
  · split
    · -- zeros between the point and the digits
      rw [List.forall_mem_append, List.forall_mem_append]
      refine ⟨⟨?_, hzeros _⟩, hds⟩
      exact List.forall_mem_cons.mpr ⟨hzero, List.forall_mem_singleton.mpr hpoint⟩
    · split
      · -- the point among the digits
        rw [List.forall_mem_append, List.forall_mem_cons]
        exact ⟨fun c hc => hds c (List.mem_of_mem_take hc), hpoint,
          fun c hc => hds c (List.mem_of_mem_drop hc)⟩
      · -- zeros between the digits and the point
        rw [List.forall_mem_append, List.forall_mem_append]
        refine ⟨⟨hds, hzeros _⟩, ?_⟩
        exact List.forall_mem_cons.mpr ⟨hpoint, List.forall_mem_singleton.mpr hzero⟩

/-- **The characters of a double** are digits and marks, apart from what its layout adds. -/
theorem forall_mem_text (hdigit : ∀ c, c.isDigit = true → P c) (hpoint : P '.') (hminus : P '-')
    (hexponent : P 'e') (hplus : ∀ c ∈ l.plus, P c) (hnan : ∀ c ∈ l.nan, P c)
    (hinfinity : ∀ c ∈ l.infinity, P c) (x : Float) : ∀ c ∈ l.text x, P c := by
  have hsign : ∀ negative : Bool, ∀ c ∈ (if negative then ['-'] else []), P c := by
    intro negative c hc
    cases negative with
    | false => cases hc
    | true =>
      rw [List.mem_singleton.mp hc]
      exact hminus
  have hzero : P '0' := hdigit '0' (by decide)
  unfold text
  split
  · exact hnan
  · exact List.forall_mem_append.mpr ⟨hsign _, hinfinity⟩
  · refine List.forall_mem_append.mpr ⟨hsign _, ?_⟩
    split
    · exact List.forall_mem_cons.mpr ⟨hzero, List.forall_mem_cons.mpr
        ⟨hpoint, List.forall_mem_singleton.mpr hzero⟩⟩
    · exact forall_mem_place hdigit hpoint hminus hexponent hplus _

end Decimal.Layout

end LoadRig
