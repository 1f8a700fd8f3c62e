import LoadRig.Proofs.Toml.Place
/-!
# Names that are defined once

A document consists of headers and of keys with values. Each of them says of some names what they stand
for, and no name may be given a second meaning. There are three exceptions. A table that was only
implied by a header below it may still have its own; a list of tables goes on with each of its headers,
and what stood below the last one may be said again; and a dotted key may go through tables that dotted
keys have made.

This is said here of the lines alone. That tables are built from them line by line, and which lookups
are made on the way, does not come into it: what a name stands for is read off the lines before. Tables
built from lines that define each name once are then shown to hold just what the lines define.

## Main definitions

* `LoadRig.Toml.Statement` — a line that says something.
* `LoadRig.Toml.Defined` — what a name stands for after some lines.
* `LoadRig.Toml.NamesOnce` — no name is defined twice.
* `LoadRig.Toml.build?` — the tables that lines make.
* `LoadRig.Toml.Faithful` — tables hold what lines define.

## Main results

* `LoadRig.Toml.faithful_of_apply?` — what a line does.
* `LoadRig.Toml.exists_build?` — lines that define each name once make tables.
-/

namespace LoadRig.Toml

/-- A line that says something. A key and its value belong to the table of the header before them. -/
inductive Statement where
  | header (path : Path)
  | element (path : Path)
  | pair (under key : Path) (value : Item)

namespace Statement

/-- The name that a line is about. -/
def path : Statement → Path
  | header q => q
  | element q => q
  | pair u key _ => u ++ key

/-- The header that the next line belongs to. -/
def next : Statement → Path
  | header q => q
  | element q => q
  | pair u _ _ => u

/-- What a line says of names: of the one that it is about, and of those on the way to it. -/
inductive Defines : Statement → Path → Kind → Prop
  | header (q : Path) : Defines (header q) q (.table .header)
  | element (q : Path) : Defines (element q) q .tables
  | value (u key : Path) (v : Item) : Defines (pair u key v) (u ++ key) (.value v)
  | wayToHeader {p r : Path} (hp : p ≠ []) (hr : r ≠ []) :
      Defines (header (p ++ r)) p (.table .implied)
  | wayToElement {p r : Path} (hp : p ≠ []) (hr : r ≠ []) :
      Defines (element (p ++ r)) p (.table .implied)
  | wayToValue {p r : Path} (u : Path) (v : Item) (hp : p ≠ []) (hr : r ≠ []) :
      Defines (pair u (p ++ r) v) (u ++ p) (.table .dotted)

end Statement

/-- What a name stands for after some lines, the last one first. What stands below a header in double
brackets is out of sight when its next one comes. -/
inductive Defined : List Statement → Path → Kind → Prop
  | here {s : Statement} {past : List Statement} {p : Path} {k : Kind} (h : s.Defines p k) :
      Defined (s :: past) p k
  | earlier {s : Statement} {past : List Statement} {p : Path} {k : Kind} (h : Defined past p k)
      (hs : ∀ q r, s = .element q → p = q ++ r → r = []) : Defined (s :: past) p k

/-- On the way to a name there is none that stands for a value. -/
def WayOpen (past : List Statement) (q : Path) : Prop :=
  ∀ p r v, p ≠ [] → r ≠ [] → q = p ++ r → ¬ Defined past p (.value v)

/-- The name that a line is about can be given its meaning. -/
def Fresh (past : List Statement) : Statement → Prop
  | .header q => q ≠ [] ∧ WayOpen past q ∧ ∀ k, Defined past q k → k = .table .implied
  | .element q => q ≠ [] ∧ WayOpen past q ∧ ∀ k, Defined past q k → k = .tables
  | .pair u key _ => key ≠ [] ∧ (∀ k, ¬ Defined past (u ++ key) k) ∧
      ∀ p r k, p ≠ [] → r ≠ [] → key = p ++ r → Defined past (u ++ p) k → k = .table .dotted

/-- No name is defined twice. -/
def NamesOnce (past : List Statement) : List Statement → Prop
  | [] => True
  | s :: ss => Fresh past s ∧ NamesOnce (s :: past) ss

/-- Lines in their order: keys belong to the header before them, and what they are given is a value. -/
def Follows (u : Path) : List Statement → Prop
  | [] => True
  | .pair v _ value :: ss => v = u ∧ value.kind = .value value ∧ Follows u ss
  | s :: ss => Follows s.next ss

/-- What a line does to the tables. -/
def Statement.apply? : Statement → Entries → Option Entries
  | header q => openTable? q
  | element q => openElement? q
  | pair u key value => within? u (addKey? key value)

/-- The tables that lines make. -/
def build? (ss : List Statement) (es : Entries) : Option Entries :=
  ss.foldlM (fun es s => s.apply? es) es

/-- Tables hold what lines define, and nothing else. -/
structure Faithful (es : Entries) (past : List Statement) : Prop where
  sound : ∀ p i, itemAt es p = some i → Defined past p i.kind
  complete : ∀ p k, Defined past p k → ∃ i, itemAt es p = some i

/-- One can go down to a place. -/
def Opened (es : Entries) (u : Path) : Prop :=
  ∀ p r, p ≠ [] → u = p ++ r → ∃ i, itemAt es p = some i ∧ ∀ v, i.kind ≠ .value v

variable {es es' : Entries} {past ss : List Statement} {s : Statement} {p q r u path : Path}
  {item : Item} {k way : Kind}

/-! ### Lines -/

theorem Statement.Defines.exists_append (h : s.Defines p k) :
    ∃ r, s.path = p ++ r ∧ (r ≠ [] → p ≠ []) := by
  cases h with
  | header | element | value => exact ⟨[], (List.append_nil _).symm, fun h => absurd rfl h⟩
  | wayToHeader hp hr | wayToElement hp hr => exact ⟨_, rfl, fun _ => hp⟩
  | wayToValue u v hp hr =>
    exact ⟨_, (List.append_assoc ..).symm, fun _ h => hp (List.append_eq_nil_iff.mp h).2⟩

/-- A line says nothing of what is below the name that it is about. -/
theorem Statement.not_defines_below (hr : r ≠ []) : ¬ s.Defines (s.path ++ r) k := by
  intro h
  obtain ⟨t, ht, -⟩ := h.exists_append
  rw [List.append_assoc, List.self_eq_append_right] at ht
  exact hr (List.append_eq_nil_iff.mp ht).1

theorem not_defined_nil : ¬ Defined [] p k := fun h => by cases h

/-- A name stands for what some line says of it. -/
theorem Defined.exists_mem (h : Defined past p k) : ∃ s ∈ past, s.Defines p k := by
  induction h with
  | here h => exact ⟨_, List.mem_cons_self, h⟩
  | earlier _ _ ih =>
    obtain ⟨s, hs, hp⟩ := ih
    exact ⟨s, List.mem_cons_of_mem _ hs, hp⟩

/-- A name stands for what any line says of it, if no list of tables begins on the way to it. -/
theorem Statement.Defines.defined (h : s.Defines p k) (hs : s ∈ past)
    (hseen : ∀ q r, .element q ∈ past → p = q ++ r → r = []) : Defined past p k := by
  induction past with
  | nil => cases hs
  | cons t past ih =>
    rcases List.mem_cons.mp hs with rfl | hs
    · exact .here h
    · refine .earlier (ih hs fun q r hq => hseen q r (List.mem_cons_of_mem _ hq)) fun q r ht => ?_
      exact hseen q r (ht ▸ List.mem_cons_self)

theorem NamesOnce.path_ne_nil (h : NamesOnce past ss) (hs : s ∈ ss) : s.path ≠ [] := by
  induction ss generalizing past with
  | nil => cases hs
  | cons t ss ih =>
    rcases List.mem_cons.mp hs with rfl | hs
    · cases s with
      | header q | element q => exact h.1.1
      | pair u key v => exact fun hnil => h.1.1 (List.append_eq_nil_iff.mp hnil).2
    · exact ih h.2 hs

theorem faithful_nil : Faithful [] [] where
  sound p i h := by
    rw [itemAt_nil] at h
    cases h
  complete p k h := absurd h not_defined_nil

theorem opened_nil : Opened es [] := fun _ _ hp h =>
  absurd (List.append_eq_nil_iff.mp h.symm).1 hp

/-! ### What a line does -/

/-- Tables in which one item was put at one place hold what the line defines that is about it. -/
theorem Faithful.placed (hf : Faithful es past) (hplaced : Placed es s.path way item es')
    (hhere : s.Defines s.path item.kind)
    (hway : ∀ p r, p ≠ [] → r ≠ [] → s.path = p ++ r → itemAt es p = none → s.Defines p way)
    (hbelow : ∀ r i, r ≠ [] → itemAt item.entries r = some i →
      Defined (s :: past) (s.path ++ r) i.kind)
    (hbelow' : ∀ r k, r ≠ [] → Defined (s :: past) (s.path ++ r) k →
      ∃ i, itemAt item.entries r = some i) : Faithful es' (s :: past) := by
  have hinside : ∀ {r : Path}, r ≠ [] → itemAt es' (s.path ++ r) = itemAt item.entries r :=
    fun hr => by rw [itemAt_append hr, entriesAt_of_itemAt hplaced.here]
  have hkeep : ∀ {p : Path} {k : Kind}, ¬ s.path <+: p ∨ s.path = p → Defined past p k →
      Defined (s :: past) p k := by
    intro p k hp h
    refine .earlier h fun q r hs heq => ?_
    rw [hs] at hp
    rcases hp with hp | hp
    · exact absurd ⟨r, heq.symm⟩ hp
    · exact List.append_right_eq_self.mp (heq.symm.trans hp.symm)
  constructor
  · intro p i hi
    by_cases hdown : s.path <+: p
    · obtain ⟨r, rfl⟩ := hdown
      by_cases hr : r = []
      · subst hr
        rw [List.append_nil] at hi ⊢
        obtain rfl := Option.some.inj (hplaced.here.symm.trans hi)
        exact .here hhere
      · exact hbelow r i hr ((hinside hr).symm.trans hi)
    · by_cases hup : p <+: s.path
      · obtain ⟨r, hr⟩ := hup
        have hrne : r ≠ [] := by
          rintro rfl
          exact hdown ⟨[], by rw [← hr, List.append_nil, List.append_nil]⟩
        have hpne : p ≠ [] := by
          rintro rfl
          cases hi
        obtain ⟨j, hj, hkind⟩ := hplaced.onWay p r hpne hrne hr.symm
        obtain rfl := Option.some.inj (hi.symm.trans hj)
        rcases hkind with ⟨hnone, hkind⟩ | ⟨old, hold, hkind⟩
        · rw [hkind]
          exact .here (hway p r hpne hrne hr.symm hnone)
        · rw [hkind]
          exact hkeep (.inl hdown) (hf.sound p old hold)
      · rw [hplaced.aside p hup hdown] at hi
        exact hkeep (.inl hdown) (hf.sound p i hi)
  · intro p k h
    by_cases hdown : s.path <+: p
    · obtain ⟨r, rfl⟩ := hdown
      by_cases hr : r = []
      · subst hr
        rw [List.append_nil]
        exact ⟨item, hplaced.here⟩
      · obtain ⟨i, hi⟩ := hbelow' r k hr h
        exact ⟨i, (hinside hr).trans hi⟩
    · by_cases hup : p <+: s.path
      · obtain ⟨r, hr⟩ := hup
        have hrne : r ≠ [] := by
          rintro rfl
          exact hdown ⟨[], by rw [← hr, List.append_nil, List.append_nil]⟩
        by_cases hpne : p = []
        · subst hpne
          cases h with
          | here h =>
            obtain ⟨t, ht, hne⟩ := h.exists_append
            have heq : r = t := hr.trans ht
            exact absurd rfl (hne (heq ▸ hrne))
          | earlier h =>
            obtain ⟨i, hi⟩ := hf.complete [] k h
            cases hi
        · obtain ⟨j, hj, -⟩ := hplaced.onWay p r hpne hrne hr.symm
          exact ⟨j, hj⟩
      · rw [hplaced.aside p hup hdown]
        cases h with
        | here h =>
          obtain ⟨r, hr, -⟩ := h.exists_append
          exact absurd ⟨r, hr.symm⟩ hup
        | earlier h => exact hf.complete p k h

theorem table_ne_value {origin : Origin} (v : Item) : Kind.table origin ≠ .value v := by
  intro h
  cases h

/-- After a line one can go down to what it is about, if one could go down to its table before. -/
theorem opened_of_placed (hplaced : Placed es path way item es') (hclosed : ∀ v, way ≠ .value v)
    (hp : p ≠ []) (hr : r ≠ []) (hpath : path = p ++ r)
    (hopen : ∀ i, itemAt es p = some i → ∀ v, i.kind ≠ .value v) :
    ∃ i, itemAt es' p = some i ∧ ∀ v, i.kind ≠ .value v := by
  obtain ⟨i, hi, ⟨-, hkind⟩ | ⟨j, hj, hkind⟩⟩ := hplaced.onWay p r hp hr hpath
  · exact ⟨i, hi, fun v => hkind ▸ hclosed v⟩
  · exact ⟨i, hi, fun v => hkind ▸ hopen j hj v⟩

theorem Faithful.wayOpen (hf : Faithful es past) (h : WayOpen past q) :
    ∀ p r i, p ≠ [] → r ≠ [] → q = p ++ r → itemAt es p = some i → ∀ v, i.kind ≠ .value v := by
  intro p r i hp hr heq hi v hv
  exact h p r v hp hr heq (hv ▸ hf.sound p i hi)

/-- A header in single brackets. -/
theorem faithful_of_header (hf : Faithful es past) (hfresh : Fresh past (.header q)) :
    ∃ es', openTable? q es = some es' ∧ Faithful es' (.header q :: past) ∧ Opened es' q := by
  obtain ⟨hne, hway, hnew⟩ := hfresh
  have hopen := hf.wayOpen hway
  obtain ⟨es', hes', hplaced⟩ := exists_openTable? hne hopen fun i hi =>
    hnew i.kind (hf.sound q i hi)
  refine ⟨es', hes', hf.placed hplaced (.header q) ?_ ?_ ?_, ?_⟩
  · rintro p r hp hr rfl -
    exact .wayToHeader hp hr
  · intro r i hr hi
    have hold : itemAt es (q ++ r) = some i := (itemAt_append hr).trans hi
    exact .earlier (hf.sound _ i hold) fun q r h => by cases h
  · intro r k hr h
    cases h with
    | here h => exact absurd h (Statement.not_defines_below hr)
    | earlier h =>
      obtain ⟨i, hi⟩ := hf.complete _ k h
      exact ⟨i, (itemAt_append hr).symm.trans hi⟩
  · intro p r hp heq
    by_cases hr : r = []
    · obtain rfl : q = p := by rw [heq, hr, List.append_nil]
      exact ⟨_, hplaced.here, fun v h => by cases h⟩
    · exact opened_of_placed hplaced table_ne_value hp hr heq fun i => hopen p r i hp hr heq

/-- A header in double brackets. -/
theorem faithful_of_element (hf : Faithful es past) (hfresh : Fresh past (.element q)) :
    ∃ es', openElement? q es = some es' ∧ Faithful es' (.element q :: past) ∧ Opened es' q := by
  obtain ⟨hne, hway, hnew⟩ := hfresh
  have hopen := hf.wayOpen hway
  obtain ⟨es', elements, hes', hplaced⟩ := exists_openElement? hne hopen fun i hi =>
    hnew i.kind (hf.sound q i hi)
  refine ⟨es', hes', hf.placed hplaced (.element q) ?_ ?_ ?_, ?_⟩
  · rintro p r hp hr rfl -
    exact .wayToElement hp hr
  · intro r i hr hi
    rw [Item.entries, itemAt_nil] at hi
    cases hi
  · intro r k hr h
    cases h with
    | here h => exact absurd h (Statement.not_defines_below hr)
    | earlier h hs => exact absurd (hs q r rfl rfl) hr
  · intro p r hp heq
    by_cases hr : r = []
    · obtain rfl : q = p := by rw [heq, hr, List.append_nil]
      exact ⟨_, hplaced.here, fun v h => by cases h⟩
    · exact opened_of_placed hplaced table_ne_value hp hr heq fun i => hopen p r i hp hr heq

/-- A key and its value. -/
theorem faithful_of_pair {key : Path} {value : Item} (hf : Faithful es past) (hu : Opened es u)
    (hvalue : value.kind = .value value) (hfresh : Fresh past (.pair u key value)) :
    ∃ es', within? u (addKey? key value) es = some es' ∧
      Faithful es' (.pair u key value :: past) ∧ Opened es' u := by
  obtain ⟨hne, hnew, hdotted⟩ := hfresh
  have hnone : itemAt es (u ++ key) = none := by
    cases hi : itemAt es (u ++ key) with
    | none => rfl
    | some i => exact absurd (hf.sound _ i hi) (hnew i.kind)
  obtain ⟨es', hes', hplaced⟩ := exists_addKey? hne hu (fun p r i hp hr heq hi =>
    hdotted p r i.kind hp hr heq (hf.sound _ i hi)) hnone
  refine ⟨es', hes', hf.placed hplaced ?_ ?_ ?_ ?_, ?_⟩
  · rw [hvalue]
    exact .value u key value
  · intro p r hp hr heq hi
    have hthere : ∀ {t : Path}, u ≠ p ++ t := fun hup => by
      obtain ⟨i, hsome, -⟩ := hu p _ hp hup
      cases hi.symm.trans hsome
    rcases List.append_eq_append_iff.mp heq with ⟨a, rfl, rfl⟩ | ⟨c, hup, -⟩
    · have ha : a ≠ [] := by
        rintro rfl
        exact hthere (by rw [List.append_nil, List.append_nil])
      exact .wayToValue u value ha hr
    · exact absurd hup hthere
  · intro r i hr hi
    rw [entries_of_kind hvalue, itemAt_nil] at hi
    cases hi
  · intro r k hr h
    cases h with
    | here h => exact absurd h (Statement.not_defines_below hr)
    | earlier h =>
      obtain ⟨i, hi⟩ := hf.complete _ k h
      have hbelow := itemAt_append_of_none (r := r) (by simp [hne]) hnone
      cases hi.symm.trans hbelow
  · intro p r hp heq
    refine opened_of_placed hplaced table_ne_value hp (r := r ++ key) (by simp [hne])
      (by rw [heq, List.append_assoc]) fun i hi => ?_
    obtain ⟨j, hj, hclosed⟩ := hu p r hp heq
    obtain rfl := Option.some.inj (hi.symm.trans hj)
    exact hclosed

/-- **What a line does**: if it defines a name that is not taken, the tables hold it afterwards. -/
theorem faithful_of_apply? (hf : Faithful es past) (hu : Opened es u) (hs : Follows u (s :: ss))
    (hfresh : Fresh past s) : ∃ es', s.apply? es = some es' ∧ Faithful es' (s :: past) ∧
      Opened es' s.next ∧ Follows s.next ss := by
  cases s with
  | header q =>
    obtain ⟨es', hes', hf', hq⟩ := faithful_of_header hf hfresh
    exact ⟨es', hes', hf', hq, hs⟩
  | element q =>
    obtain ⟨es', hes', hf', hq⟩ := faithful_of_element hf hfresh
    exact ⟨es', hes', hf', hq, hs⟩
  | pair v key value =>
    obtain ⟨rfl, hvalue, hss⟩ := hs
    obtain ⟨es', hes', hf', hu'⟩ := faithful_of_pair hf hu hvalue hfresh
    exact ⟨es', hes', hf', hu', hss⟩

/-- **Lines that define each name once make tables**, and these hold what the lines define. -/
theorem exists_build? (hf : Faithful es past) (hu : Opened es u) (hss : Follows u ss)
    (honce : NamesOnce past ss) :
    ∃ es', build? ss es = some es' ∧ Faithful es' (ss.reverse ++ past) := by
  induction ss generalizing es past u with
  | nil => exact ⟨es, rfl, hf⟩
  | cons s ss ih =>
    obtain ⟨es₁, hes₁, hf₁, hu₁, hss₁⟩ := faithful_of_apply? hf hu hss honce.1
    obtain ⟨es', hes', hf'⟩ := ih hf₁ hu₁ hss₁ honce.2
    refine ⟨es', ?_, ?_⟩
    · rw [build?, List.foldlM_cons, hes₁]
      exact hes'
    · rw [List.reverse_cons, List.append_assoc]
      exact hf'

end LoadRig.Toml
