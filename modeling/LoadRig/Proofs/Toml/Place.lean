import LoadRig.Toml.Item
import Mathlib.Data.List.Infix
/-!
# Items in their places

An item of a document has a place, which is named by the names on the way to it. Whatever a line of a
document does to the tables, it puts one item at one place. On the way to that place there are tables
before and after, of the same sorts; what was not there is made. Everything that is neither on the way
nor below the place stays as it was.

## Main definitions

* `LoadRig.Toml.itemAt` — the item at a place.
* `LoadRig.Toml.Kind` — what an item is for the lines that come after it.
* `LoadRig.Toml.Placed` — what it means that one item was put at one place.

## Main results

* `LoadRig.Toml.exists_openTable?`, `LoadRig.Toml.exists_openElement?`, `LoadRig.Toml.exists_addKey?` —
  when the three sorts of lines can do what they should, and what they do.
-/

namespace LoadRig.Toml

/-- The names on the way to an item, the outermost first. -/
abbrev Path := List (List Char)

/-- What an item is for the lines that come after it. Only tables can be gone into. -/
inductive Kind where
  | value (v : Item)
  | table (origin : Origin)
  | tables

/-- What an item is. -/
def Item.kind : Item → Kind
  | .table origin _ => .table origin
  | .tables (_ :: _) => .tables
  | v => .value v

/-- What is seen when an item is gone into. In a list of tables that is the current one. -/
def Item.entries : Item → Entries
  | .table _ es => es
  | .tables (es :: _) => es
  | _ => []

/-- What is seen below a name. -/
def Entries.below (es : Entries) (name : List Char) : Entries := (es.find? name).elim [] Item.entries

/-- The item at a place. -/
def itemAt : Entries → Path → Option Item
  | _, [] => none
  | es, [name] => es.find? name
  | es, name :: next :: path => itemAt (es.below name) (next :: path)

/-- What is seen below a place. -/
def entriesAt : Entries → Path → Entries
  | es, [] => es
  | es, name :: path => entriesAt (es.below name) path

variable {es es' inner : Entries} {name other key : List Char} {path p q r tail parts : Path}
  {item value i j : Item} {way : Kind} {change : Entries → Option Entries}

/-! ### Looking up -/

theorem find?_cons (e : List Char × Item) (es : Entries) (other : List Char) :
    Entries.find? other (e :: es) = if e.1 = other then some e.2 else es.find? other := by
  by_cases h : e.1 = other
  · simp [Entries.find?, h]
  · simp [Entries.find?, h, beq_false_of_ne h]

theorem find?_put (es : Entries) (name other : List Char) (item : Item) :
    (es.put name item).find? other = if name = other then some item else es.find? other := by
  induction es with
  | nil => exact find?_cons (name, item) [] other
  | cons e es ih =>
    by_cases he : e.1 = name
    · rw [Entries.put, if_pos (beq_iff_eq.mpr he), find?_cons, find?_cons, he]
      split <;> rfl
    · rw [Entries.put, if_neg (mt beq_iff_eq.mp he), find?_cons, find?_cons, ih]
      by_cases h : e.1 = other
      · rw [if_pos h, if_pos h, if_neg fun heq => he (h.trans heq.symm)]
      · rw [if_neg h, if_neg h]

@[simp] theorem find?_put_self : (es.put name item).find? name = some item := by
  rw [find?_put, if_pos rfl]

theorem find?_put_of_ne (h : name ≠ other) : (es.put name item).find? other = es.find? other := by
  rw [find?_put, if_neg h]

@[simp] theorem below_put_self : (es.put name item).below name = item.entries := by
  rw [Entries.below, find?_put_self]
  rfl

theorem below_put_of_ne (h : name ≠ other) : (es.put name item).below other = es.below other := by
  rw [Entries.below, find?_put_of_ne h, Entries.below]

@[simp] theorem itemAt_singleton : itemAt es [name] = es.find? name := rfl

theorem itemAt_cons (h : path ≠ []) : itemAt es (name :: path) = itemAt (es.below name) path := by
  obtain ⟨next, path, rfl⟩ := List.exists_cons_of_ne_nil h
  rfl

/-- An item is seen below any place on the way to it. -/
theorem itemAt_append (h : r ≠ []) : itemAt es (p ++ r) = itemAt (entriesAt es p) r := by
  induction p generalizing es with
  | nil => rfl
  | cons name p ih =>
    rw [List.cons_append, itemAt_cons (by simp [h]), ih, entriesAt]

theorem entriesAt_concat : entriesAt es (p ++ [name]) = (entriesAt es p).below name := by
  induction p generalizing es with
  | nil => rfl
  | cons first p ih => exact ih

theorem itemAt_concat : itemAt es (p ++ [name]) = (entriesAt es p).find? name :=
  itemAt_append (List.cons_ne_nil name [])

@[simp] theorem itemAt_nil : itemAt [] path = none := by
  induction path with
  | nil => rfl
  | cons name path ih =>
    cases path with
    | nil => rfl
    | cons next path => exact ih

theorem entriesAt_of_itemAt (h : itemAt es path = some i) : entriesAt es path = i.entries := by
  induction path generalizing es with
  | nil => cases h
  | cons name path ih =>
    cases path with
    | nil =>
      rw [itemAt_singleton] at h
      rw [entriesAt, entriesAt, Entries.below, h]
      rfl
    | cons next path => exact ih h

/-- Below a place where there is nothing, there is nothing. -/
theorem itemAt_append_of_none (hp : p ≠ []) (h : itemAt es p = none) : itemAt es (p ++ r) = none := by
  by_cases hr : r = []
  · rw [hr, List.append_nil, h]
  · induction p generalizing es with
    | nil => exact absurd rfl hp
    | cons name p ih =>
      cases p with
      | nil =>
        have hbelow : es.below name = [] := by
          rw [Entries.below, show es.find? name = none from h]
          rfl
        rw [List.singleton_append, itemAt_cons hr, hbelow, itemAt_nil]
      | cons next p => exact ih (List.cons_ne_nil _ _) h

/-- There is nothing to be seen in a value. -/
theorem entries_of_kind {v : Item} (h : i.kind = .value v) : i.entries = [] := by
  unfold Item.kind at h
  split at h
  · cases h
  · cases h
  · next htable htables =>
    cases i with
    | table origin es => exact absurd rfl (htable origin es)
    | tables elements =>
      cases elements with
      | nil => rfl
      | cons e es => exact absurd rfl (htables e es)
    | _ => rfl

theorem eq_of_kind {v : Item} (h : i.kind = .value v) : i = v := by
  unfold Item.kind at h
  split at h
  · cases h
  · cases h
  · exact Kind.value.inj h

theorem exists_table_of_kind {origin : Origin} (h : i.kind = .table origin) :
    ∃ inner, i = .table origin inner := by
  unfold Item.kind at h
  split at h
  · next o inner =>
    obtain rfl := Kind.table.inj h
    exact ⟨inner, rfl⟩
  · cases h
  · cases h

/-! ### Putting one item at one place -/

/-- One item was put at one place. The tables on the way are of the same sorts as before; those that
were not there are of the sort that is named. -/
structure Placed (es : Entries) (path : Path) (way : Kind) (item : Item) (es' : Entries) : Prop where
  here : itemAt es' path = some item
  onWay : ∀ p r, p ≠ [] → r ≠ [] → path = p ++ r → ∃ i, itemAt es' p = some i ∧
    (itemAt es p = none ∧ i.kind = way ∨ ∃ j, itemAt es p = some j ∧ i.kind = j.kind)
  aside : ∀ p, ¬ p <+: path → ¬ path <+: p → itemAt es' p = itemAt es p

/-- What is seen below other names stays. -/
theorem itemAt_put_of_ne (h : name ≠ other) :
    itemAt (es.put name item) (other :: path) = itemAt es (other :: path) := by
  cases path with
  | nil => exact find?_put_of_ne h
  | cons next path => rw [itemAt, itemAt, below_put_of_ne h]

theorem Placed.last : Placed es [name] way item (es.put name item) where
  here := find?_put_self
  onWay p r hp hr h := by
    obtain ⟨first, p, rfl⟩ := List.exists_cons_of_ne_nil hp
    obtain ⟨-, h⟩ := List.cons.inj h
    exact absurd (List.append_eq_nil_iff.mp h.symm).2 hr
  aside p hp hpath := by
    cases p with
    | nil => exact absurd List.nil_prefix hp
    | cons other p =>
      refine itemAt_put_of_ne ?_
      rintro rfl
      exact hpath ⟨p, rfl⟩

/-- One step further out. -/
theorem Placed.cons (hpath : path ≠ []) (h : Placed (es.below name) path way item j.entries)
    (hj : es.find? name = none ∧ j.kind = way ∨ ∃ i, es.find? name = some i ∧ j.kind = i.kind) :
    Placed es (name :: path) way item (es.put name j) where
  here := by rw [itemAt_cons hpath, below_put_self, h.here]
  onWay p r hp hr heq := by
    obtain ⟨first, p, rfl⟩ := List.exists_cons_of_ne_nil hp
    obtain ⟨rfl, rfl⟩ := List.cons.inj heq
    by_cases hnil : p = []
    · rw [hnil]
      exact ⟨j, find?_put_self, hj⟩
    · rw [itemAt_cons hnil, itemAt_cons hnil, below_put_self]
      exact h.onWay p r hnil hr rfl
  aside p hp hpath' := by
    cases p with
    | nil => exact absurd List.nil_prefix hp
    | cons other p =>
      by_cases hname : name = other
      · rw [← hname, List.cons_prefix_cons] at hp hpath'
        have hnil : p ≠ [] := by
          rintro rfl
          exact hp ⟨rfl, List.nil_prefix⟩
        rw [← hname, itemAt_cons hnil, itemAt_cons hnil, below_put_self]
        exact h.aside p (fun hpre => hp ⟨rfl, hpre⟩) fun hpre => hpath' ⟨rfl, hpre⟩
      · exact itemAt_put_of_ne hname

/-! ### Going down -/

theorem exists_concat (h : q ≠ []) : ∃ path name, q = path ++ [name] :=
  ⟨_, _, (List.dropLast_concat_getLast h).symm⟩

/-- A table can be changed at the end of a way on which there is no value. -/
theorem exists_descend? (htail : tail ≠ [])
    (hopen : ∀ p r i, p ≠ [] → path = p ++ r → itemAt es p = some i → ∀ v, i.kind ≠ .value v)
    (hway : ∀ p r, p ≠ [] → path = p ++ r → itemAt es p = none → way = .table .implied)
    (hchange : ∃ inner, change (entriesAt es path) = some inner ∧
      Placed (entriesAt es path) tail way item inner) :
    ∃ es', descend? change path es = some es' ∧ Placed es (path ++ tail) way item es' := by
  induction path generalizing es with
  | nil => exact hchange
  | cons name path ih =>
    have hdeep : ∀ {p : Path}, p ≠ [] → itemAt es (name :: p) = itemAt (es.below name) p :=
      itemAt_cons
    obtain ⟨inner, hinner, hplaced⟩ := @ih (es.below name)
      (fun p r i hp heq hi => hopen (name :: p) r i (List.cons_ne_nil _ _)
        (congrArg (name :: ·) heq) ((hdeep hp).trans hi))
      (fun p r hp heq hi => hway (name :: p) r (List.cons_ne_nil _ _)
        (congrArg (name :: ·) heq) ((hdeep hp).trans hi))
      hchange
    have hne : path ++ tail ≠ [] := by simp [htail]
    rw [descend?, List.cons_append]
    cases hfind : es.find? name with
    | none =>
      have hnew := hway [name] path (List.cons_ne_nil _ _) rfl hfind
      have hbelow : es.below name = [] := by rw [Entries.below, hfind]; rfl
      rw [hbelow] at hinner
      refine ⟨es.put name (.table .implied inner), by simp [hinner], ?_⟩
      exact Placed.cons hne hplaced (.inl ⟨hfind, hnew.symm⟩)
    | some i =>
      have hclosed := hopen [name] path i (List.cons_ne_nil _ _) rfl hfind
      have hbelow : es.below name = i.entries := by rw [Entries.below, hfind]; rfl
      rw [hbelow] at hinner
      cases i with
      | table origin entries =>
        refine ⟨es.put name (.table origin inner), ?_, ?_⟩
        · simp only [Item.entries] at hinner
          simp [hinner]
        · exact Placed.cons hne hplaced (.inr ⟨_, hfind, rfl⟩)
      | tables elements =>
        cases elements with
        | nil => exact absurd rfl (hclosed _)
        | cons e others =>
          refine ⟨es.put name (.tables (inner :: others)), ?_, ?_⟩
          · simp only [Item.entries] at hinner
            simp [hinner]
          · exact Placed.cons hne hplaced (.inr ⟨_, hfind, rfl⟩)
      | _ => exact absurd rfl (hclosed _)

/-- A header in single brackets can be opened if its table is new, or only implied so far. What the
table holds stays. -/
theorem exists_openTable? (hq : q ≠ [])
    (hopen : ∀ p r i, p ≠ [] → r ≠ [] → q = p ++ r → itemAt es p = some i →
      ∀ v, i.kind ≠ .value v)
    (hnew : ∀ i, itemAt es q = some i → i.kind = .table .implied) :
    ∃ es', openTable? q es = some es' ∧
      Placed es q (.table .implied) (.table .header (entriesAt es q)) es' := by
  obtain ⟨path, name, rfl⟩ := exists_concat hq
  rw [openTable?, List.getLast?_concat, List.dropLast_concat]
  have hway : ∀ p r i, p ≠ [] → path = p ++ r → itemAt es p = some i → ∀ v, i.kind ≠ .value v :=
    fun p r i hp heq => hopen p (r ++ [name]) i hp (by simp) (by rw [heq, List.append_assoc])
  refine exists_descend? (List.cons_ne_nil name []) hway (fun _ _ _ _ _ => rfl) ?_
  rw [itemAt_concat] at hnew
  rw [entriesAt_concat, Entries.below]
  cases hfind : (entriesAt es path).find? name with
  | none => exact ⟨_, rfl, Placed.last⟩
  | some i =>
    have himplied := hnew i hfind
    cases i with
    | table origin entries =>
      cases himplied
      exact ⟨_, rfl, Placed.last⟩
    | tables elements => cases elements <;> cases himplied
    | _ => cases himplied

/-- A header in double brackets can be opened if its name is new or stands for such a list. What the
new table holds is nothing. -/
theorem exists_openElement? (hq : q ≠ [])
    (hopen : ∀ p r i, p ≠ [] → r ≠ [] → q = p ++ r → itemAt es p = some i →
      ∀ v, i.kind ≠ .value v)
    (hnew : ∀ i, itemAt es q = some i → i.kind = .tables) :
    ∃ es' elements, openElement? q es = some es' ∧
      Placed es q (.table .implied) (.tables ([] :: elements)) es' := by
  obtain ⟨path, name, rfl⟩ := exists_concat hq
  rw [itemAt_concat] at hnew
  have hlist : ∃ elements, (entriesAt es path).find? name = none ∧ elements = [] ∨
      (entriesAt es path).find? name = some (.tables elements) := by
    cases hfind : (entriesAt es path).find? name with
    | none => exact ⟨[], .inl ⟨rfl, rfl⟩⟩
    | some i =>
      have htables := hnew i hfind
      cases i with
      | tables elements => exact ⟨elements, .inr rfl⟩
      | _ => cases htables
  obtain ⟨elements, hlist⟩ := hlist
  have hway : ∀ p r i, p ≠ [] → path = p ++ r → itemAt es p = some i → ∀ v, i.kind ≠ .value v :=
    fun p r i hp heq => hopen p (r ++ [name]) i hp (by simp) (by rw [heq, List.append_assoc])
  rw [exists_comm]
  refine ⟨elements, ?_⟩
  rw [openElement?, List.getLast?_concat, List.dropLast_concat]
  refine exists_descend? (List.cons_ne_nil name []) hway (fun _ _ _ _ _ => rfl) ?_
  rcases hlist with ⟨hfind, rfl⟩ | hfind
  · exact ⟨_, by rw [hfind], Placed.last⟩
  · exact ⟨_, by rw [hfind], Placed.last⟩

/-- A value can be added under a new dotted key that goes through dotted tables only. -/
theorem exists_addKeyIn? {nested : Bool} {origin : Origin}
    (hdotted : ∀ p r i, p ≠ [] → parts = p ++ r → itemAt es p = some i → i.kind = .table .dotted)
    (hnew : itemAt es (parts ++ [key]) = none) (horigin : nested = true → origin = .dotted) :
    ∃ es', addKeyIn? key value nested origin parts es = some es' ∧
      Placed es (parts ++ [key]) (.table .dotted) value es' := by
  induction parts generalizing es nested origin with
  | nil =>
    have hfree : (es.find? key).isSome = false := by
      rw [show es.find? key = none from hnew]
      rfl
    have hown : (nested && origin != .dotted) = false := by
      cases nested with
      | false => rfl
      | true => rw [horigin rfl]; rfl
    exact ⟨es.put key value, by simp [addKeyIn?, hown, hfree], Placed.last⟩
  | cons part parts ih =>
    have hne : parts ++ [key] ≠ [] := by simp
    obtain ⟨inner, hinner, hplaced⟩ := @ih (es.below part) true .dotted
      (fun p r i hp heq hi => hdotted (part :: p) r i (List.cons_ne_nil _ _)
        (congrArg (part :: ·) heq) ((itemAt_cons hp).trans hi))
      ((itemAt_cons hne).symm.trans hnew) fun _ => rfl
    rw [List.cons_append]
    cases hfind : es.find? part with
    | none =>
      have hbelow : es.below part = [] := by rw [Entries.below, hfind]; rfl
      rw [hbelow] at hinner
      refine ⟨es.put part (.table .dotted inner), by simp [addKeyIn?, hfind, hinner], ?_⟩
      exact Placed.cons hne hplaced (.inl ⟨hfind, rfl⟩)
    | some i =>
      have hkind := hdotted [part] parts i (List.cons_ne_nil _ _) rfl hfind
      have hbelow : es.below part = i.entries := by rw [Entries.below, hfind]; rfl
      rw [hbelow] at hinner
      cases i with
      | table o entries =>
        cases hkind
        simp only [Item.entries] at hinner
        refine ⟨es.put part (.table .dotted inner), by simp [addKeyIn?, hfind, hinner], ?_⟩
        exact Placed.cons hne hplaced (.inr ⟨_, hfind, rfl⟩)
      | tables elements => cases elements <;> cases hkind
      | _ => cases hkind

/-- The same below a table that is there. -/
theorem exists_addKey? {under : Path} (hkey : q ≠ [])
    (hunder : ∀ p r, p ≠ [] → under = p ++ r → ∃ i, itemAt es p = some i ∧
      ∀ v, i.kind ≠ .value v)
    (hdotted : ∀ p r i, p ≠ [] → r ≠ [] → q = p ++ r → itemAt es (under ++ p) = some i →
      i.kind = .table .dotted)
    (hnew : itemAt es (under ++ q) = none) :
    ∃ es', within? under (addKey? q value) es = some es' ∧
      Placed es (under ++ q) (.table .dotted) value es' := by
  obtain ⟨parts, key, rfl⟩ := exists_concat hkey
  refine exists_descend? (by simp) (fun p r i hp heq hi => ?_) (fun p r hp heq hi => ?_) ?_
  · obtain ⟨j, hj, hclosed⟩ := hunder p r hp heq
    obtain rfl := Option.some.inj (hi.symm.trans hj)
    exact hclosed
  · obtain ⟨j, hj, -⟩ := hunder p r hp heq
    cases hi.symm.trans hj
  · rw [itemAt_append (by simp)] at hnew
    simp only [addKey?, List.getLast?_concat, List.dropLast_concat]
    refine exists_addKeyIn? (fun p r i hp heq hi => ?_) hnew ?_
    · exact hdotted p (r ++ [key]) i hp (by simp) (by rw [heq, List.append_assoc])
        ((itemAt_append hp).trans hi)
    · exact fun h => nomatch h

end LoadRig.Toml
