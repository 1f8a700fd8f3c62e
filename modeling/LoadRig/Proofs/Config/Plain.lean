import LoadRig.Proofs.Config.Assignment
/-!
# Assignments in plain writing

In the plainest document for an assignment there is one header for each group, and below it one line for
each parameter that is assigned: its name, an equals sign and its value, numbers in their digits and the
address between quotes. Every assignment in range can be written so, if the characters of its address can.

## Main definitions

* `LoadRig.Config.Assignment.lines`, `LoadRig.Config.Assignment.text` — the document.

## Main results

* `LoadRig.Config.Assignment.spelled_text`, `LoadRig.Config.Assignment.namesOnce_lines`,
  `LoadRig.Config.Assignment.written_lines` — the document writes the assignment down.
-/

namespace LoadRig.Config

open LoadRig.Text LoadRig.Toml

variable {a : Assignment} {g : Group} {p : Parameter} {i : Item} {u : Path} {ss : List Statement}
  {t ts : List Char}

/-! ### Names -/

theorem Parameter.isBare_name (p : Parameter) :
    p.name.toList ≠ [] ∧ p.name.toList.all isBare = true := by
  rcases p with _ | q
  · decide
  · cases q <;> decide

theorem Group.isBare_name (g : Group) : g.name.toList ≠ [] ∧ g.name.toList.all isBare = true := by
  cases g <;> decide

/-- The names of a group and of its parameters. -/
def Group.paths (g : Group) : List Path := [g.name.toList] :: g.parameters.map Parameter.path

/-- No two groups or parameters share a name. -/
theorem Group.nodup_paths : (Group.all.flatMap Group.paths).Nodup := by decide +kernel

namespace Assignment

/-! ### The document -/

/-- The characters of the address can stand between quotes. -/
def IsPlain (a : Assignment) : Prop := ∀ s, a.baseUrl = some s → s.toList.all isPlain = true

/-- A value as it is written plainly. -/
def value? (a : Assignment) : Parameter → Option (List Char)
  | .baseUrl => a.baseUrl.map fun s => '"' :: (s.toList ++ ['"'])
  | .quantity q => (a.quantity q).map digits

def lineText (a : Assignment) (p : Parameter) : List Char :=
  (a.value? p).elim [] fun t => p.name.toList ++ ' ' :: '=' :: ' ' :: (t ++ ['\n'])

def groupLines (a : Assignment) (g : Group) : List Statement :=
  .header [g.name.toList] :: g.parameters.filterMap fun p => (a.item? p).map p.line

def groupText (a : Assignment) (g : Group) : List Char :=
  '[' :: (g.name.toList ++ ']' :: '\n' :: g.parameters.flatMap a.lineText)

/-- The lines of the plain document. -/
def lines (a : Assignment) : List Statement := Group.all.flatMap a.groupLines

/-- The text of the plain document. -/
def text (a : Assignment) : List Char := Group.all.flatMap a.groupText

/-! ### Spelling -/

theorem spelled_value (hrange : a.InRange) (hplain : a.IsPlain) (hi : a.item? p = some i) :
    ∃ t, a.value? p = some t ∧ Spelled true 0 (.value i) t := by
  rcases p with _ | q
  · obtain ⟨s, hs, rfl⟩ := Option.map_eq_some_iff.mp hi
    exact ⟨_, congrArg (Option.map _) hs, spelled_plain (hplain s hs)⟩
  · obtain ⟨n, hn, rfl⟩ := Option.map_eq_some_iff.mp hi
    exact ⟨_, congrArg (Option.map _) hn, spelled_digits ((hrange q n hn).trans_le q.limit_le)⟩

theorem value?_eq_none (hi : a.item? p = none) : a.value? p = none := by
  rcases p with _ | q
  · exact Option.map_eq_none_iff.mpr (Option.map_eq_none_iff.mp hi)
  · exact Option.map_eq_none_iff.mpr (Option.map_eq_none_iff.mp hi)

theorem spelled_parameters {ps : List Parameter} (hrange : a.InRange) (hplain : a.IsPlain)
    (hps : ∀ p ∈ ps, p.group = g) (hs : DocumentSpelled true [g.name.toList] ss ts) :
    DocumentSpelled true [g.name.toList] (ps.filterMap (fun p => (a.item? p).map p.line) ++ ss)
      (ps.flatMap a.lineText ++ ts) := by
  induction ps with
  | nil => exact hs
  | cons p ps ih =>
    have hrest := ih fun p' hp' => hps p' (List.mem_cons_of_mem p hp')
    rw [List.flatMap_cons, List.append_assoc, lineText]
    cases hi : a.item? p with
    | none =>
      rw [value?_eq_none hi, List.filterMap_cons_none (by rw [hi]; rfl)]
      exact hrest
    | some i =>
      obtain ⟨t, ht, hspelled⟩ := spelled_value hrange hplain hi
      rw [ht, List.filterMap_cons_some (by rw [hi]; rfl), Parameter.line, hps p List.mem_cons_self]
      have hline := DocumentSpelled.pairLine p.isBare_name.1 p.isBare_name.2 hspelled
        (.blank gap_nil) hrest
      simpa using hline

theorem spelled_groups (hrange : a.InRange) (hplain : a.IsPlain) (gs : List Group) :
    DocumentSpelled true u (gs.flatMap a.groupLines) (gs.flatMap a.groupText) := by
  induction gs generalizing u with
  | nil => exact .nil
  | cons g gs ih =>
    have hps : ∀ p ∈ g.parameters, p.group = g := fun p => Group.mem_parameters.mp
    have hgroup := DocumentSpelled.headerLine (u := u)
      (.plain g.isBare_name.1 g.isBare_name.2) (.blank gap_nil)
      (spelled_parameters hrange hplain hps ih)
    rw [List.flatMap_cons, List.flatMap_cons, groupLines, groupText]
    simpa using hgroup

/-- **Every assignment in range can be written plainly.** -/
theorem spelled_text (hrange : a.InRange) (hplain : a.IsPlain) :
    DocumentSpelled true [] a.lines a.text :=
  spelled_groups hrange hplain Group.all

/-! ### Lines -/

/-- A line of the document is a header or assigns. -/
theorem mem_lines {s : Statement} (hs : s ∈ a.lines) :
    (∃ g : Group, s = .header [g.name.toList]) ∨ ∃ p i, a.item? p = some i ∧ s = p.line i := by
  obtain ⟨g, -, hs⟩ := List.mem_flatMap.mp hs
  rcases List.mem_cons.mp hs with rfl | hs
  · exact .inl ⟨g, rfl⟩
  · obtain ⟨p, -, hp⟩ := List.mem_filterMap.mp hs
    obtain ⟨i, hi, rfl⟩ := Option.map_eq_some_iff.mp hp
    exact .inr ⟨p, i, hi, rfl⟩

theorem sublist_paths (a : Assignment) (g : Group) :
    ((a.groupLines g).map Statement.path).Sublist g.paths := by
  refine List.Sublist.cons_cons _ ?_
  induction g.parameters with
  | nil => exact .slnil
  | cons p ps ih =>
    cases hi : a.item? p with
    | none =>
      rw [List.filterMap_cons_none (by rw [hi]; rfl), List.map_cons]
      exact ih.cons _
    | some i =>
      rw [List.filterMap_cons_some (by rw [hi]; rfl), List.map_cons, List.map_cons]
      exact ih.cons_cons _

theorem nodup_paths_lines (a : Assignment) : (a.lines.map Statement.path).Nodup := by
  have hsub : ∀ gs : List Group,
      ((gs.flatMap a.groupLines).map Statement.path).Sublist (gs.flatMap Group.paths) := by
    intro gs
    induction gs with
    | nil => exact .slnil
    | cons g gs ih =>
      rw [List.flatMap_cons, List.flatMap_cons, List.map_append]
      exact (sublist_paths a g).append ih
  exact Group.nodup_paths.sublist (hsub Group.all)

theorem namesOnce_lines (a : Assignment) : NamesOnce [] a.lines := by
  refine namesOnce_of_nodup (fun s hs => absurd hs List.not_mem_nil) (fun s hs => ?_)
    (fun s _ => List.not_mem_nil) a.nodup_paths_lines
  rcases mem_lines hs with ⟨g, rfl⟩ | ⟨p, i, -, rfl⟩
  · rfl
  · rfl

/-- **The plain document writes the assignment down.** -/
theorem written_lines (a : Assignment) : a.Written a.lines where
  assigned p i hi := by
    refine List.mem_flatMap.mpr ⟨p.group, p.group.mem_all, List.mem_cons_of_mem _ ?_⟩
    exact List.mem_filterMap.mpr ⟨p, Group.mem_parameters.mpr rfl, by rw [hi]; rfl⟩
  others s hs := by
    rcases mem_lines hs with ⟨g, rfl⟩ | hassigned
    · exact .inr (foreign_header g)
    · exact .inl hassigned

end Assignment

end LoadRig.Config
