import LoadRig.Files
import Mathlib.Tactic.ByContra
/-!
# Reading back what was written

Text that was written to a file is what is read from it, and a file that could be written can be
written again. Both rest on the laws of a tree in which one entry is put: what stands at its path is
the entry, and what stands at any other path has not changed. The directories above the entry are at
other paths, so the way to it is open if it was open before.

## Main results

* `LoadRig.Files.at?_put_self`, `LoadRig.Files.at?_put_of_ne` — the entries of a tree.
* `LoadRig.Files.read_of_write` — what was written is read back.
* `LoadRig.Files.exists_write_of_write` — a file is written again.
-/

namespace LoadRig.Files

variable {f f' : Files} {path other : List String} {e : Entry} {name text : String}

/-! ### Entries -/

theorem leadsUp_eq_false (h : f.at? path ≠ some .directory) : leadsUp path = false := by
  by_contra hup
  rw [Bool.not_eq_false] at hup
  exact h (if_pos hup)

theorem at?_put_self (h : leadsUp path = false) : (f.put path e).at? path = some e := by
  simp [at?, put, h]

theorem at?_put_of_ne (h : other ≠ path) : (f.put path e).at? other = f.at? other := by
  have hkept : (fun x : List String × Entry => decide ((x.1 != path) = true ∧ (x.1 == other) = true)) =
      (·.1 == other) := by
    funext x
    by_cases hx : x.1 = other
    · simp [hx, h]
    · simp [hx]
  simp only [at?, put, List.find?_cons, beq_eq_false_iff_ne.mpr h.symm, List.find?_filter]
  rw [hkept]

/-- A path is not blocked if there are directories all the way down to it. -/
theorem blocked?_eq_none_iff :
    f.blocked? path = none ↔ ∀ i < path.length, f.at? (path.take i) = some .directory := by
  unfold blocked?
  rw [List.findSome?_eq_none_iff]
  constructor
  · intro h i hi
    have := h i (List.mem_range.mpr hi)
    split at this
    · cases this
    · assumption
    · cases this
  · intro h i hi
    rw [h i (List.mem_range.mp hi)]

/-- What is put at a path does not block it. -/
theorem blocked?_put (h : f.blocked? path = none) : (f.put path e).blocked? path = none := by
  rw [blocked?_eq_none_iff] at h ⊢
  intro i hi
  have hshort : path.take i ≠ path := by
    intro heq
    have := congrArg List.length heq
    rw [List.length_take] at this
    omega
  rw [at?_put_of_ne hshort]
  exact h i hi

/-! ### Files -/

theorem write_eq_ok_iff :
    f.write name text = .ok f' ↔
      name.isEmpty = false ∧ f.blocked? (components name) = none ∧ name.endsWith "/" = false ∧
        f.at? (components name) ≠ some .directory ∧
        f.put (components name) (.file text.toUTF8) = f' := by
  by_cases hempty : name.isEmpty = true
  · simp [write, hempty]
  · rcases hopen : f.blocked? (components name) with - | e
    · by_cases hslash : name.endsWith "/" = true
      · simp [write, hempty, hopen, hslash]
      · rcases hfile : f.at? (components name) with - | (content | -)
        · simp [write, hempty, hopen, hslash, hfile]
        · simp [write, hempty, hopen, hslash, hfile]
        · simp [write, hempty, hopen, hslash, hfile]
    · simp [write, hempty, hopen]

theorem fromUTF8?_toUTF8 (text : String) : String.fromUTF8? text.toUTF8 = some text := by
  unfold String.fromUTF8?
  split
  · rfl
  next h => exact absurd text.isValidUTF8 h

/-- **What was written is read back.** -/
theorem read_of_write (h : f.write name text = .ok f') : f'.read name = .ok text := by
  obtain ⟨hempty, hopen, hslash, hfile, rfl⟩ := write_eq_ok_iff.mp h
  simp only [read, hempty, Bool.false_eq_true, if_false, blocked?_put hopen,
    at?_put_self (leadsUp_eq_false hfile), hslash, fromUTF8?_toUTF8]

/-- **A file that could be written can be written again.** -/
theorem exists_write_of_write (h : f.write name text = .ok f') (again : String) :
    ∃ f'', f'.write name again = .ok f'' := by
  obtain ⟨hempty, hopen, hslash, hfile, rfl⟩ := write_eq_ok_iff.mp h
  refine ⟨_, write_eq_ok_iff.mpr ⟨hempty, blocked?_put hopen, hslash, ?_, rfl⟩⟩
  rw [at?_put_self (leadsUp_eq_false hfile)]
  simp

end LoadRig.Files
