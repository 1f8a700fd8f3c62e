import LoadRig.Proofs.Toml.Names
/-!
# What names stand for, looked up

A line says at most one thing of a name, and which one can be read off the line. So what a name stands
for after some lines can be looked up, from the last line back to the first one that hides the name, and
whether lines define a name twice can be decided.

## Main definitions

* `LoadRig.Toml.Statement.says?` — what a line says of a name.
* `LoadRig.Toml.meanings` — all that a name stands for after some lines.

## Main results

* `LoadRig.Toml.Statement.defines_iff`, `LoadRig.Toml.defined_iff` — nothing is missed.
* `LoadRig.Toml.namesOnce_of_nodup` — lines with names of their own.
-/

namespace LoadRig.Toml

variable {past ss : List Statement} {s : Statement} {p q : Path} {k : Kind}

/-- The names on the way to a name. -/
def ways (q : Path) : List Path := q.inits.filter fun p => p ≠ [] ∧ p ≠ q

theorem mem_ways : p ∈ ways q ↔ p ≠ [] ∧ ∃ r, r ≠ [] ∧ q = p ++ r := by
  have hproper : p <+: q ∧ p ≠ q ↔ ∃ r, r ≠ [] ∧ q = p ++ r := by
    constructor
    · rintro ⟨⟨r, rfl⟩, hne⟩
      exact ⟨r, fun hr => hne (by rw [hr, List.append_nil]), rfl⟩
    · rintro ⟨r, hr, rfl⟩
      exact ⟨⟨r, rfl⟩, fun h => hr (List.self_eq_append_right.mp h)⟩
  rw [ways, List.mem_filter, List.mem_inits, decide_eq_true_iff, ← hproper]
  tauto

/-- There is nothing on the way to a single word. -/
theorem ne_append_of_length {r : Path} (hq : q.length = 1) (hp : p ≠ []) (hr : r ≠ []) :
    q ≠ p ++ r := by
  rintro rfl
  have hhead := List.length_pos_iff.mpr hp
  have htail := List.length_pos_iff.mpr hr
  rw [List.length_append] at hq
  omega

namespace Statement

/-- What the name that a line is about stands for. -/
def meaning : Statement → Kind
  | header _ => .table .header
  | element _ => .tables
  | pair _ _ v => .value v

/-- The names on the way to the one that a line is about, from the header of the line on. -/
def onWay : Statement → List Path
  | header q => ways q
  | element q => ways q
  | pair u key _ => (ways key).map (u ++ ·)

/-- What names on the way stand for. -/
def wayKind : Statement → Kind
  | header _ => .table .implied
  | element _ => .table .implied
  | pair _ _ _ => .table .dotted

/-- What a line says of a name. -/
def says? (s : Statement) (p : Path) : Option Kind :=
  if p = s.path then some s.meaning else if p ∈ s.onWay then some s.wayKind else none

theorem path_notMem_onWay : s.path ∉ s.onWay := by
  cases s with
  | header q | element q =>
    intro h
    obtain ⟨-, r, hr, heq⟩ := mem_ways.mp h
    exact hr (List.self_eq_append_right.mp heq)
  | pair u key v =>
    intro h
    obtain ⟨p, hp, heq⟩ := List.mem_map.mp h
    obtain ⟨-, r, hr, rfl⟩ := mem_ways.mp hp
    exact hr (List.self_eq_append_right.mp (List.append_cancel_left heq))

theorem says?_path : s.says? s.path = some s.meaning := if_pos rfl

theorem says?_of_mem_onWay (h : p ∈ s.onWay) : s.says? p = some s.wayKind := by
  have hne : p ≠ s.path := by
    rintro rfl
    exact path_notMem_onWay h
  rw [says?, if_neg hne, if_pos h]

/-- **What a line says of a name.** -/
theorem defines_iff : s.Defines p k ↔ s.says? p = some k := by
  constructor
  · intro h
    cases h with
    | header q => exact says?_path
    | element q => exact says?_path
    | value u key v => exact says?_path
    | wayToHeader hp hr => exact says?_of_mem_onWay (mem_ways.mpr ⟨hp, _, hr, rfl⟩)
    | wayToElement hp hr => exact says?_of_mem_onWay (mem_ways.mpr ⟨hp, _, hr, rfl⟩)
    | wayToValue u v hp hr =>
      exact says?_of_mem_onWay (List.mem_map_of_mem (mem_ways.mpr ⟨hp, _, hr, rfl⟩))
  · intro h
    rw [says?] at h
    split at h
    · next heq =>
      subst heq
      obtain rfl := Option.some.inj h
      cases s with
      | header q => exact .header q
      | element q => exact .element q
      | pair u key v => exact .value u key v
    · split at h
      · next hway =>
        obtain rfl := Option.some.inj h
        cases s with
        | header q =>
          obtain ⟨hp, r, hr, rfl⟩ := mem_ways.mp hway
          exact .wayToHeader hp hr
        | element q =>
          obtain ⟨hp, r, hr, rfl⟩ := mem_ways.mp hway
          exact .wayToElement hp hr
        | pair u key v =>
          obtain ⟨p, hmem, rfl⟩ := List.mem_map.mp hway
          obtain ⟨hp, r, hr, rfl⟩ := mem_ways.mp hmem
          exact .wayToValue u v hp hr
      · cases h

/-- Whether a line puts a name out of sight. -/
def hides : Statement → Path → Bool
  | element q, p => q ≠ p ∧ q <+: p
  | _, _ => false

theorem hides_eq_false_iff :
    s.hides p = false ↔ ∀ q r, s = .element q → p = q ++ r → r = [] := by
  cases s with
  | header q => simp [hides]
  | pair u key v => simp [hides]
  | element q =>
    rw [hides, decide_eq_false_iff_not]
    constructor
    · rintro h q' r hq rfl
      obtain rfl := element.inj hq
      by_contra hr
      exact h ⟨fun heq => hr (List.self_eq_append_right.mp heq), ⟨r, rfl⟩⟩
    · rintro h ⟨hne, r, rfl⟩
      rw [h q r rfl rfl, List.append_nil] at hne
      exact hne rfl

/-- A line whose own part of its name is one word, so that there is nothing on the way to it. -/
def Single : Statement → Prop
  | header q => q.length = 1
  | element q => q.length = 1
  | pair _ key _ => key.length = 1

/-- Such a line says nothing but what its name stands for. -/
theorem Single.defines (hs : s.Single) (h : s.Defines p k) : p = s.path ∧ k = s.meaning := by
  cases h with
  | header | element | value => exact ⟨rfl, rfl⟩
  | wayToHeader hp hr | wayToElement hp hr | wayToValue _ _ hp hr =>
    exact absurd rfl (ne_append_of_length hs hp hr)

end Statement

/-- All that a name stands for after some lines, the last one first. -/
def meanings : List Statement → Path → List Kind
  | [], _ => []
  | s :: past, p => (s.says? p).toList ++ if s.hides p then [] else meanings past p

/-- **What a name stands for after some lines.** -/
theorem defined_iff : Defined past p k ↔ k ∈ meanings past p := by
  induction past with
  | nil => simp [meanings, not_defined_nil]
  | cons s past ih =>
    rw [meanings, List.mem_append, Option.mem_toList, ← Statement.defines_iff]
    constructor
    · intro h
      cases h with
      | here h => exact .inl h
      | earlier h hs =>
        rw [Statement.hides_eq_false_iff.mpr hs]
        exact .inr (ih.mp h)
    · rintro (h | h)
      · exact .here h
      · split at h
        · cases h
        · next hs =>
          exact .earlier (ih.mpr h) (Statement.hides_eq_false_iff.mp (Bool.not_eq_true _ ▸ hs))

/-! ### Different names -/

theorem fresh_of_notMem (hs : s.Single) (hpast : ∀ t ∈ past, t.Single)
    (hnew : s.path ∉ past.map Statement.path) : Fresh past s := by
  have hnone : ∀ k, ¬ Defined past s.path k := by
    intro k hk
    obtain ⟨t, ht, hd⟩ := hk.exists_mem
    exact hnew (List.mem_map.mpr ⟨t, ht, ((hpast t ht).defines hd).1.symm⟩)
  have hne : ∀ {q : Path}, q.length = 1 → q ≠ [] := fun hq =>
    List.ne_nil_of_length_pos (hq ▸ Nat.one_pos)
  cases s with
  | header q | element q =>
    refine ⟨hne hs, fun p r v hp hr heq => ?_, fun k hk => absurd hk (hnone k)⟩
    exact absurd heq (ne_append_of_length hs hp hr)
  | pair u key v =>
    exact ⟨hne hs, hnone, fun p r k hp hr heq => absurd heq (ne_append_of_length hs hp hr)⟩

/-- Lines of this sort define no name twice if their names differ. -/
theorem namesOnce_of_nodup (hpast : ∀ s ∈ past, s.Single) (hss : ∀ s ∈ ss, s.Single)
    (hnew : ∀ s ∈ ss, s.path ∉ past.map Statement.path) (hnodup : (ss.map Statement.path).Nodup) :
    NamesOnce past ss := by
  induction ss generalizing past with
  | nil => trivial
  | cons s ss ih =>
    rw [List.map_cons, List.nodup_cons] at hnodup
    have hs := hss s List.mem_cons_self
    refine ⟨fresh_of_notMem hs hpast (hnew s List.mem_cons_self), ih ?_ ?_ ?_ hnodup.2⟩
    · exact List.forall_mem_cons.mpr ⟨hs, hpast⟩
    · exact fun t ht => hss t (List.mem_cons_of_mem s ht)
    · intro t ht hmem
      rcases List.mem_cons.mp hmem with heq | hmem
      · exact hnodup.1 (heq ▸ List.mem_map_of_mem ht)
      · exact hnew t (List.mem_cons_of_mem s ht) hmem

/-! ### Decisions -/

instance (k : Kind) : Decidable (∃ v, k = .value v) :=
  match k with
  | .value v => .isTrue ⟨v, rfl⟩
  | .table _ => .isFalse nofun
  | .tables => .isFalse nofun

instance (k : Kind) (origin : Origin) : Decidable (k = .table origin) :=
  match k with
  | .value _ => .isFalse nofun
  | .table o => decidable_of_iff (o = origin) ⟨congrArg Kind.table, Kind.table.inj⟩
  | .tables => .isFalse nofun

instance (k : Kind) : Decidable (k = .tables) :=
  match k with
  | .value _ => .isFalse nofun
  | .table _ => .isFalse nofun
  | .tables => .isTrue rfl

theorem wayOpen_iff :
    WayOpen past q ↔ ∀ p ∈ ways q, ∀ k ∈ meanings past p, ¬ ∃ v, k = .value v := by
  constructor
  · rintro h p hp k hk ⟨v, rfl⟩
    obtain ⟨hp, r, hr, heq⟩ := mem_ways.mp hp
    exact h p r v hp hr heq (defined_iff.mpr hk)
  · intro h p r v hp hr heq hdefined
    exact h p (mem_ways.mpr ⟨hp, r, hr, heq⟩) _ (defined_iff.mp hdefined) ⟨v, rfl⟩

instance : Decidable (WayOpen past q) := decidable_of_iff' _ wayOpen_iff

theorem fresh_pair_iff {u key : Path} {v : Item} :
    Fresh past (.pair u key v) ↔ key ≠ [] ∧ meanings past (u ++ key) = [] ∧
      ∀ p ∈ ways key, ∀ k ∈ meanings past (u ++ p), k = .table .dotted := by
  rw [Fresh, List.eq_nil_iff_forall_not_mem]
  simp only [defined_iff, mem_ways]
  refine and_congr_right fun _ => and_congr_right fun _ => ⟨?_, ?_⟩
  · rintro h p ⟨hp, r, hr, heq⟩ k hk
    exact h p r k hp hr heq hk
  · intro h p r k hp hr heq hk
    exact h p ⟨hp, r, hr, heq⟩ k hk

instance : Decidable (Fresh past s) :=
  match s with
  | .header q => decidable_of_iff'
      (q ≠ [] ∧ WayOpen past q ∧ ∀ k ∈ meanings past q, k = .table .implied)
      (by simp only [Fresh, defined_iff])
  | .element q => decidable_of_iff'
      (q ≠ [] ∧ WayOpen past q ∧ ∀ k ∈ meanings past q, k = .tables)
      (by simp only [Fresh, defined_iff])
  | .pair _ _ _ => decidable_of_iff' _ fresh_pair_iff

/-- Whether lines define a name twice. -/
instance NamesOnce.decide : (past ss : List Statement) → Decidable (NamesOnce past ss)
  | _, [] => .isTrue trivial
  | past, s :: ss =>
    have := NamesOnce.decide (s :: past) ss
    inferInstanceAs (Decidable (Fresh past s ∧ NamesOnce (s :: past) ss))

end LoadRig.Toml
