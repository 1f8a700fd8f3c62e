import LoadRig.Keyed
import Mathlib.Data.List.Induction
import Mathlib.Data.List.Perm.Basic
/-!
# Gathering records by a key

A list of keyed entries whose keys stand in strict order is determined by what it holds under each
key. So it does not matter how it came about: a list of records, gathered one after the other under
their keys, holds under each key what the records with that key make together, and wherever the order
of those makes no difference, the order of all makes none.

## Main definitions

* `LoadRig.Keyed.Strict` — an order in which of two keys one comes before the other.
* `LoadRig.Keyed.gather` — records gathered under their keys.

## Main results

* `LoadRig.Keyed.ordered_alter`, `LoadRig.Keyed.get?_alter_self`
* `LoadRig.Keyed.eq_of_get?` — ordered lists with the same values are equal.
* `LoadRig.Keyed.get?_gather`, `LoadRig.Keyed.mem_gather_iff` — what is gathered under a key.
* `LoadRig.Keyed.gather_eq_of_perm` — the order of the records makes no difference.
-/

namespace LoadRig.Keyed

variable {κ α ρ : Type} {before : κ → κ → Bool}

/-- Of two keys one comes before the other, and no key comes before itself. -/
structure Strict (before : κ → κ → Bool) : Prop where
  irrefl : ∀ a, before a a = false
  trans : ∀ a b c, before a b = true → before b c = true → before a c = true
  connected : ∀ a b, a ≠ b → before a b = true ∨ before b a = true

theorem Strict.ne (hb : Strict before) {a b : κ} (h : before a b = true) : a ≠ b := by
  rintro rfl
  simp [hb.irrefl a] at h

/-! ### Ordered lists -/

variable [DecidableEq κ]

theorem mem_alter {key : κ} {f : Option α → α} {es : List (κ × α)} {x : κ × α}
    (h : x ∈ alter before key f es) : x.1 = key ∨ x ∈ es := by
  induction es with
  | nil => exact .inl (by simp_all [alter])
  | cons e es ih =>
    rw [alter] at h
    split at h
    · rcases List.mem_cons.mp h with rfl | h
      · exact .inl rfl
      · exact .inr (List.mem_cons_of_mem _ h)
    · split at h
      · rcases List.mem_cons.mp h with rfl | h
        · exact .inl rfl
        · exact .inr h
      · rcases List.mem_cons.mp h with rfl | h
        · exact .inr List.mem_cons_self
        · exact (ih h).imp id (List.mem_cons_of_mem _)

/-- **A change keeps the order.** -/
theorem ordered_alter (hb : Strict before) (key : κ) (f : Option α → α) {es : List (κ × α)}
    (h : Ordered before es) : Ordered before (alter before key f es) := by
  induction es with
  | nil => exact List.pairwise_singleton ..
  | cons e es ih =>
    obtain ⟨hhead, htail⟩ := List.pairwise_cons.mp h
    rw [alter]
    split
    · next hkey =>
      subst hkey
      exact List.pairwise_cons.mpr ⟨hhead, htail⟩
    · next hne =>
      split
      · next hbefore =>
        refine List.pairwise_cons.mpr ⟨fun x hx => ?_, h⟩
        rcases List.mem_cons.mp hx with rfl | hx
        · exact hbefore
        · exact hb.trans _ _ _ hbefore (hhead x hx)
      · next hnot =>
        refine List.pairwise_cons.mpr ⟨fun x hx => ?_, ih htail⟩
        rcases mem_alter hx with hx | hx
        · rw [hx]
          exact (hb.connected _ _ hne).resolve_right hnot
        · exact hhead x hx

theorem mem_of_get? {key : κ} {v : α} {es : List (κ × α)} (h : get? key es = some v) :
    (key, v) ∈ es := by
  induction es with
  | nil => cases h
  | cons e es ih =>
    rw [get?] at h
    split at h
    · next hkey =>
      rw [← hkey, ← Option.some.inj h]
      exact List.mem_cons_self
    · exact List.mem_cons_of_mem _ (ih h)

/-- A key is missing from a list that it comes before. -/
theorem get?_eq_none (hb : Strict before) {key : κ} {es : List (κ × α)}
    (h : ∀ e ∈ es, before key e.1 = true) : get? key es = none := by
  by_contra hsome
  obtain ⟨v, hv⟩ := Option.ne_none_iff_exists'.mp hsome
  exact hb.ne (h _ (mem_of_get? hv)) rfl

/-- In an ordered list the value of an entry is the one under its key. -/
theorem get?_of_mem (hb : Strict before) {key : κ} {v : α} {es : List (κ × α)}
    (h : Ordered before es) (hmem : (key, v) ∈ es) : get? key es = some v := by
  induction es with
  | nil => cases hmem
  | cons e es ih =>
    obtain ⟨hhead, htail⟩ := List.pairwise_cons.mp h
    rw [get?]
    rcases List.mem_cons.mp hmem with rfl | hmem
    · rw [if_pos rfl]
    · rw [if_neg (hb.ne (hhead _ hmem)), ih htail hmem]

/-- What a change under a key leaves there. -/
theorem get?_alter_self (hb : Strict before) (key : κ) (f : Option α → α) {es : List (κ × α)}
    (h : Ordered before es) : get? key (alter before key f es) = some (f (get? key es)) := by
  induction es with
  | nil => simp [alter, get?]
  | cons e es ih =>
    obtain ⟨hhead, htail⟩ := List.pairwise_cons.mp h
    rw [alter]
    split
    · next hkey => simp [get?, hkey]
    · next hne =>
      split
      · next hbefore =>
        have hmissing : get? key (e :: es) = none := get?_eq_none hb fun x hx => by
          rcases List.mem_cons.mp hx with rfl | hx
          · exact hbefore
          · exact hb.trans _ _ _ hbefore (hhead x hx)
        rw [hmissing, get?, if_pos rfl]
      · rw [get?, get?, if_neg hne, if_neg hne, ih htail]

/-- **Ordered lists with the same values are equal.** -/
theorem eq_of_get? (hb : Strict before) {es es' : List (κ × α)} (h : Ordered before es)
    (h' : Ordered before es') (heq : ∀ key, get? key es = get? key es') : es = es' := by
  induction es generalizing es' with
  | nil =>
    cases es' with
    | nil => rfl
    | cons e' es' => simpa [get?] using heq e'.1
  | cons e es ih =>
    cases es' with
    | nil => simpa [get?] using heq e.1
    | cons e' es' =>
      obtain ⟨hhead, htail⟩ := List.pairwise_cons.mp h
      obtain ⟨hhead', htail'⟩ := List.pairwise_cons.mp h'
      have hkey : e.1 = e'.1 := by
        by_contra hne
        -- either head is in the other list, behind its head
        have hin : (e.1, e.2) ∈ e' :: es' := mem_of_get? (by rw [← heq, get?, if_pos rfl])
        have hin' : (e'.1, e'.2) ∈ e :: es := mem_of_get? (by rw [heq, get?, if_pos rfl])
        have hbehind : before e'.1 e.1 = true := by
          rcases List.mem_cons.mp hin with hin | hin
          · exact absurd (congrArg Prod.fst hin) hne
          · exact hhead' _ hin
        have hbehind' : before e.1 e'.1 = true := by
          rcases List.mem_cons.mp hin' with hin' | hin'
          · exact absurd (congrArg Prod.fst hin') (Ne.symm hne)
          · exact hhead _ hin'
        exact hb.ne (hb.trans _ _ _ hbehind hbehind') rfl
      have hvalue : e.2 = e'.2 := by
        have hfirst := heq e.1
        rw [get?, get?, if_pos rfl, if_pos hkey.symm] at hfirst
        exact Option.some.inj hfirst
      have hrest : es = es' := by
        refine ih htail htail' fun key => ?_
        by_cases hk : e.1 = key
        · subst hk
          rw [get?_eq_none hb hhead, hkey, get?_eq_none hb hhead']
        · have hlater := heq key
          rwa [get?, get?, if_neg hk, if_neg (hkey ▸ hk)] at hlater
      rw [hrest, Prod.ext hkey hvalue]

/-! ### Gathered records -/

/-- Records gathered one after the other under their keys, where `f` is what a record makes of what
was there before. -/
def gather (before : κ → κ → Bool) (key : ρ → κ) (f : ρ → Option α → α) (rs : List ρ) :
    List (κ × α) :=
  rs.foldl (fun es r => alter before (key r) (f r) es) []

variable {key : ρ → κ} {f : ρ → Option α → α}

theorem gather_concat (rs : List ρ) (r : ρ) :
    gather before key f (rs ++ [r]) = alter before (key r) (f r) (gather before key f rs) := by
  simp [gather]

theorem ordered_gather (hb : Strict before) (rs : List ρ) :
    Ordered before (gather before key f rs) := by
  induction rs using List.reverseRecOn with
  | nil => exact List.Pairwise.nil
  | append_singleton rs r ih =>
    rw [gather_concat]
    exact ordered_alter hb _ _ ih

/-- **What is gathered under a key** is what the records with that key make together. -/
theorem get?_gather (hb : Strict before) (k : κ) (rs : List ρ) :
    get? k (gather before key f rs)
      = (rs.filter fun r => key r = k).foldl (fun v r => some (f r v)) none := by
  induction rs using List.reverseRecOn with
  | nil => rfl
  | append_singleton rs r ih =>
    rw [gather_concat, List.filter_append, List.foldl_append, ← ih]
    by_cases hk : key r = k
    · subst hk
      rw [get?_alter_self hb _ _ (ordered_gather hb rs)]
      simp
    · rw [get?_alter_of_ne _ _ (Ne.symm hk)]
      simp [hk]

/-- Records make something together unless there are none. -/
theorem exists_foldl (f : ρ → Option α → α) {rs : List ρ} (h : rs ≠ []) :
    ∃ v, rs.foldl (fun v r => some (f r v)) none = some v := by
  obtain rfl | ⟨rs, r, rfl⟩ := rs.eq_nil_or_concat'
  · exact absurd rfl h
  · exact ⟨_, List.foldl_append ..⟩

/-- The entries of the list are what is gathered under the keys that occur. -/
theorem mem_gather_iff (hb : Strict before) {k : κ} {v : α} {rs : List ρ} :
    (k, v) ∈ gather before key f rs ↔
      (rs.filter fun r => key r = k).foldl (fun v r => some (f r v)) none = some v := by
  rw [← get?_gather hb]
  exact ⟨get?_of_mem hb (ordered_gather hb rs), mem_of_get?⟩

/-- **The order of the records makes no difference** if under one key the order of two of them makes
none. -/
theorem gather_eq_of_perm (hb : Strict before)
    (hf : ∀ v r r', f r' (some (f r v)) = f r (some (f r' v))) {rs rs' : List ρ}
    (h : rs.Perm rs') : gather before key f rs = gather before key f rs' := by
  refine eq_of_get? hb (ordered_gather hb rs) (ordered_gather hb rs') fun k => ?_
  rw [get?_gather hb, get?_gather hb]
  exact (h.filter _).foldl_eq' (fun r _ r' _ v => congrArg some (hf v r r')) none

end LoadRig.Keyed
