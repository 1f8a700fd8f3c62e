/-!
# Lists of keyed entries in ascending order

A finite map whose entries are listed in the order of their keys. There is one way to change such
a list: `Keyed.alter` finds the entry of a key, or the place where it belongs, in a single pass.
The pass compares keys only, so the laws about what is stored under a key hold for every list,
ordered or not, and order is a separate matter.

## Main definitions

* `LoadRig.Keyed.alter` — changes or creates the entry of a key.
* `LoadRig.Keyed.get?` — the value under a key.

## Main results

* `LoadRig.Keyed.get?_alter_of_ne` — a change under one key leaves the others alone.
-/

namespace LoadRig.Keyed

variable {κ α : Type} [DecidableEq κ]

/-- Replaces the value `v?` under a key by `f v?`; a new entry goes before the first key that comes
after it. -/
def alter (before : κ → κ → Bool) (key : κ) (f : Option α → α) : List (κ × α) → List (κ × α)
  | [] => [(key, f none)]
  | e :: es =>
    if e.1 = key then (key, f (some e.2)) :: es
    else if before key e.1 then (key, f none) :: e :: es
    else e :: alter before key f es

/-- The value under a key, in the first entry that has it. -/
def get? (key : κ) : List (κ × α) → Option α
  | [] => none
  | e :: es => if e.1 = key then some e.2 else get? key es

/-- An ordered list in which every key comes before those behind it. -/
def Ordered (before : κ → κ → Bool) (es : List (κ × α)) : Prop :=
  es.Pairwise fun a b => before a.1 b.1 = true

/-- What one key holds does not bear on another, whatever the order. -/
theorem get?_alter_of_ne (before : κ → κ → Bool) {key other : κ} (f : Option α → α)
    (h : other ≠ key) (es : List (κ × α)) : get? other (alter before key f es) = get? other es := by
  induction es with
  | nil => simp [alter, get?, Ne.symm h]
  | cons e es ih =>
    rcases e with ⟨k, v⟩
    by_cases hk : k = key
    · subst hk; simp [alter, get?, Ne.symm h]
    · by_cases hb : before key k = true
      · simp [alter, get?, hk, hb, Ne.symm h]
      · rw [alter, if_neg hk, if_neg hb, get?, get?, ih]

end LoadRig.Keyed
