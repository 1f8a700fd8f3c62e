import LoadRig.Json.Value
import LoadRig.Proofs.Keyed
import Mathlib.Data.List.Forall2
/-!
# The members of an object

The value of an object is the list of its members in order of their names, where of several members
with one name the last counts. So it is settled by what stands under each name, one member after the
other: a list of members that is in order already is its own value, and two lists that hold the same
under each name have the same value, in whatever way they mix the names.

## Main definitions

* `LoadRig.Json.readMember?` — a member as it is read.
* `LoadRig.Json.gathered` — the members that were read, as a value has them.

## Main results

* `LoadRig.Json.strict_nameBefore` — the order of names.
* `LoadRig.Json.gathered_eq`, `LoadRig.Json.gathered_of_ordered`
* `LoadRig.Json.Value.ofTree?_array`, `LoadRig.Json.Value.ofTree?_object` — what brackets hold, read
  item by item.
* `LoadRig.Json.Value.ofTree?_sealed` — what a sealed object holds.
-/

namespace LoadRig.Json

/-! ### The order of names -/

theorem nameBefore_irrefl (a : List Char) : nameBefore a a = false := by
  induction a with
  | nil => rfl
  | cons c a ih => simp [nameBefore, ih]

theorem nameBefore_trans {a b c : List Char} (hab : nameBefore a b = true)
    (hbc : nameBefore b c = true) : nameBefore a c = true := by
  induction a generalizing b c with
  | nil =>
    cases c with
    | nil => cases b <;> cases hbc
    | cons => rfl
  | cons x a ih =>
    cases b with
    | nil => cases hab
    | cons y b =>
      cases c with
      | nil => cases hbc
      | cons z c =>
        simp only [nameBefore, Bool.or_eq_true, Bool.and_eq_true, decide_eq_true_eq, beq_iff_eq]
          at hab hbc ⊢
        rcases hab with hab | ⟨rfl, hab⟩
        · rcases hbc with hbc | ⟨rfl, -⟩
          · exact .inl (Nat.lt_trans hab hbc)
          · exact .inl hab
        · rcases hbc with hbc | ⟨rfl, hbc⟩
          · exact .inl hbc
          · exact .inr ⟨rfl, ih hab hbc⟩

theorem nameBefore_connected {a b : List Char} (h : a ≠ b) :
    nameBefore a b = true ∨ nameBefore b a = true := by
  induction a generalizing b with
  | nil =>
    cases b with
    | nil => exact absurd rfl h
    | cons => exact .inl rfl
  | cons x a ih =>
    cases b with
    | nil => exact .inr rfl
    | cons y b =>
      simp only [nameBefore, Bool.or_eq_true, Bool.and_eq_true, decide_eq_true_eq, beq_iff_eq]
      by_cases hxy : x = y
      · subst hxy
        rcases ih (fun hab => h (hab ▸ rfl)) with hab | hba
        · exact .inl (.inr ⟨rfl, hab⟩)
        · exact .inr (.inr ⟨rfl, hba⟩)
      · have hne : x.toNat ≠ y.toNat := fun heq => hxy (Char.toNat_inj.mp heq)
        rcases Nat.lt_or_gt_of_ne hne with hlt | hgt
        · exact .inl (.inl hlt)
        · exact .inr (.inl hgt)

/-- **Names are in strict order.** -/
theorem strict_nameBefore : Keyed.Strict nameBefore where
  irrefl := nameBefore_irrefl
  trans _ _ _ := nameBefore_trans
  connected _ _ := nameBefore_connected

/-! ### Members that were read -/

/-- What was read under a name, in order. -/
def readUnder {β : Type} (name : List Char) (rs : List (List Char × β)) : List β :=
  (rs.filter fun r => r.1 = name).map (·.2)

theorem readUnder_cons {β : Type} (name : List Char) (r : List Char × β)
    (rs : List (List Char × β)) :
    readUnder name (r :: rs) = if r.1 = name then r.2 :: readUnder name rs else readUnder name rs := by
  by_cases h : r.1 = name <;> simp [readUnder, h]

theorem mem_readUnder {β : Type} {name : List Char} {v : β} {rs : List (List Char × β)} :
    v ∈ readUnder name rs ↔ (name, v) ∈ rs := by
  simp [readUnder, and_comm]

/-- The members that were read, as the value of an object has them. -/
def gathered (rs : List (List Char × Value)) : List (List Char × Value) :=
  Keyed.gather nameBefore (·.1) (fun r _ => r.2) rs

theorem ordered_gathered (rs : List (List Char × Value)) : Keyed.Ordered nameBefore (gathered rs) :=
  Keyed.ordered_gather strict_nameBefore rs

/-- Of several members with one name the last counts. -/
theorem get?_gathered (name : List Char) (rs : List (List Char × Value)) :
    Keyed.get? name (gathered rs) = (readUnder name rs).getLast? := by
  rw [gathered, Keyed.get?_gather strict_nameBefore, readUnder]
  induction rs.filter fun r => r.1 = name using List.reverseRecOn with
  | nil => rfl
  | append_singleton rs r ih => simp

/-- **Members that hold the same under each name make the same object.** -/
theorem gathered_eq {rs rs' : List (List Char × Value)}
    (h : ∀ name, readUnder name rs = readUnder name rs') : gathered rs = gathered rs' := by
  refine Keyed.eq_of_get? strict_nameBefore (ordered_gathered rs) (ordered_gathered rs') fun name => ?_
  rw [get?_gathered, get?_gathered, h name]

/-- What an ordered list holds under a name is all that it has there. -/
theorem readUnder_of_ordered {name : List Char} {rs : List (List Char × Value)}
    (h : Keyed.Ordered nameBefore rs) : readUnder name rs = (Keyed.get? name rs).toList := by
  induction rs with
  | nil => rfl
  | cons r rs ih =>
    obtain ⟨hhead, htail⟩ := List.pairwise_cons.mp h
    rw [readUnder_cons, Keyed.get?, ih htail]
    by_cases hname : r.1 = name
    · rw [if_pos hname, if_pos hname, ← hname, Keyed.get?_eq_none strict_nameBefore hhead]
      rfl
    · rw [if_neg hname, if_neg hname]

/-- **Members in order make the object that they are.** -/
theorem gathered_of_ordered {rs : List (List Char × Value)} (h : Keyed.Ordered nameBefore rs) :
    gathered rs = rs := by
  refine Keyed.eq_of_get? strict_nameBefore (ordered_gathered rs) h fun name => ?_
  rw [get?_gathered, readUnder_of_ordered h]
  cases Keyed.get? name rs <;> rfl

/-- What is gathered was read. -/
theorem mem_of_mem_gathered {r : List Char × Value} {rs : List (List Char × Value)}
    (h : r ∈ gathered rs) : r ∈ rs := by
  have hunder : r.2 ∈ readUnder r.1 (gathered rs) := mem_readUnder.mpr h
  rw [readUnder_of_ordered (ordered_gathered rs), get?_gathered, Option.mem_toList] at hunder
  exact mem_readUnder.mp (List.mem_of_getLast? hunder)

/-! ### Reading item by item -/

section Items

variable {α β : Type} {f : α → Option β}

/-- Items are read together if each is read for itself. -/
theorem mapM_eq_some_iff {l : List α} {l' : List β} :
    l.mapM f = some l' ↔ List.Forall₂ (fun a b => f a = some b) l l' := by
  induction l generalizing l' with
  | nil => cases l' <;> simp [List.mapM_nil]
  | cons a l ih =>
    rw [List.mapM_cons, List.forall₂_cons_left_iff]
    simp only [Option.bind_eq_bind, Option.bind_eq_some_iff, ih]
    constructor
    · rintro ⟨b, hb, l', hl', heq⟩
      exact ⟨b, l', hb, hl', (Option.some.inj heq).symm⟩
    · rintro ⟨b, l', hb, hl', rfl⟩
      exact ⟨b, hb, l', hl', rfl⟩

theorem exists_mapM_eq_some_iff {l : List α} :
    (∃ l', l.mapM f = some l') ↔ ∀ a ∈ l, ∃ b, f a = some b := by
  simp only [mapM_eq_some_iff]
  induction l with
  | nil => exact iff_of_true ⟨[], .nil⟩ (by simp)
  | cons a l ih =>
    rw [List.forall_mem_cons, ← ih]
    constructor
    · rintro ⟨_, h⟩
      obtain ⟨b, l', hb, hl, rfl⟩ := List.forall₂_cons_left_iff.mp h
      exact ⟨⟨b, hb⟩, l', hl⟩
    · rintro ⟨⟨b, hb⟩, l', hl⟩
      exact ⟨b :: l', .cons hb hl⟩

theorem exists_of_mem_of_mapM {l : List α} {l' : List β} (h : l.mapM f = some l') {b : β}
    (hb : b ∈ l') : ∃ a ∈ l, f a = some b := by
  induction mapM_eq_some_iff.mp h with
  | nil => cases hb
  | @cons a b' l l' ha hl ih =>
    rcases List.mem_cons.mp hb with rfl | hb
    · exact ⟨a, .head _, ha⟩
    · obtain ⟨a', ha', hread⟩ := ih (mapM_eq_some_iff.mpr hl) hb
      exact ⟨a', .tail _ ha', hread⟩

/-- Whether and as what items are read depends on nothing but what each is read as. -/
theorem mapM_eq_of_map_eq {l l' : List α} (h : l.map f = l'.map f) : l.mapM f = l'.mapM f := by
  have hid (l : List α) : l.mapM f = (l.map f).mapM id := by rw [List.mapM_map, Function.id_comp]
  rw [hid, h, ← hid]

theorem filterMap_eq_of_map_eq {l l' : List α} (h : l.map f = l'.map f) :
    l.filterMap f = l'.filterMap f := by
  have hid (l : List α) : l.filterMap f = (l.map f).filterMap id := by
    rw [List.filterMap_map, Function.id_comp]
  rw [hid, h, ← hid]

end Items

/-! ### Reading brackets -/

/-- A member as it is read: its name, and its value as `read?` reads it. -/
def readMember? {β : Type} (read? : Tree → Option β) (m : List Piece × Tree) :
    Option (List Char × β) :=
  (decodePieces? m.1).bind fun name => (read? m.2).map (name, ·)

theorem readMember?_eq_some_iff {β : Type} {read? : Tree → Option β} {m : List Piece × Tree}
    {r : List Char × β} :
    readMember? read? m = some r ↔ decodePieces? m.1 = some r.1 ∧ read? m.2 = some r.2 := by
  rw [readMember?]
  cases decodePieces? m.1 with
  | none => simp
  | some name =>
    cases read? m.2 with
    | none => simp
    | some v => simp [Prod.ext_iff]

section Brackets

variable (open? : List Char → Option Value) (levels : Nat)

theorem Value.readItems?_eq (ts : List Tree) :
    Value.readItems? open? levels ts = ts.mapM (Value.readTree? open? levels) := by
  induction ts with
  | nil => rfl
  | cons t ts ih => rw [Value.readItems?, List.mapM_cons, ih]

theorem Value.readMembers?_eq (ms : List (List Piece × Tree)) (acc : List (List Char × Value)) :
    Value.readMembers? open? levels ms acc
      = (ms.mapM (readMember? (Value.readTree? open? levels))).map
          (List.foldl (fun es r => insertMember r.1 r.2 es) acc) := by
  induction ms generalizing acc with
  | nil => rfl
  | cons m ms ih =>
    rw [Value.readMembers?, List.mapM_cons, readMember?]
    cases decodePieces? m.1 with
    | none => rfl
    | some name =>
      cases Value.readTree? open? levels m.2 with
      | none => rfl
      | some v =>
        simp only [Option.bind_eq_bind, Option.bind_some, Option.map_some, ih]
        cases ms.mapM (readMember? (Value.readTree? open? levels)) <;> rfl

theorem Value.readTree?_array (ts : List Tree) :
    Value.readTree? open? (levels + 1) (.array ts)
      = (ts.mapM (Value.readTree? open? levels)).map .array := by
  rw [Value.readTree?, Value.readItems?_eq]
  simp only [Nat.add_one_ne_zero, if_false, Nat.add_sub_cancel]
  cases ts.mapM (Value.readTree? open? levels) <;> rfl

theorem Value.readTree?_object {ms : List (List Piece × Tree)} (h : isSealed ms = false) :
    Value.readTree? open? (levels + 1) (.object ms)
      = (ms.mapM (readMember? (Value.readTree? open? levels))).map
          fun rs => .object (gathered rs) := by
  rw [Value.readTree?, Value.readMembers?_eq]
  simp only [Nat.add_one_ne_zero, if_false, Nat.add_sub_cancel, h]
  cases ms.mapM (readMember? (Value.readTree? open? levels)) <;> rfl

theorem Value.readTree?_sealed {ms : List (List Piece × Tree)} (h : isSealed ms = true) :
    Value.readTree? open? (levels + 1) (.object ms) = (sealedText? ms).bind open? := by
  rw [Value.readTree?, h]
  simp only [Nat.add_one_ne_zero, if_false]

end Brackets

/-- **An array is read item by item.** -/
theorem Value.ofTree?_array (levels : Nat) (ts : List Tree) :
    Value.ofTree? (levels + 1) (.array ts) = (ts.mapM (Value.ofTree? levels)).map .array :=
  readTree?_array ofText? levels ts

/-- **An object is read member by member**, unless it is sealed. -/
theorem Value.ofTree?_object (levels : Nat) {ms : List (List Piece × Tree)}
    (h : isSealed ms = false) :
    Value.ofTree? (levels + 1) (.object ms)
      = (ms.mapM (readMember? (Value.ofTree? levels))).map fun rs => .object (gathered rs) :=
  readTree?_object ofText? levels h

/-- A sealed object is read as the text in it. -/
theorem Value.ofTree?_sealed (levels : Nat) {ms : List (List Piece × Tree)}
    (h : isSealed ms = true) :
    Value.ofTree? (levels + 1) (.object ms) = (sealedText? ms).bind ofText? :=
  readTree?_sealed ofText? levels h

/-- Nothing else may stand in a sealed object. -/
theorem sealedText?_cons_cons (m m' : List Piece × Tree) (ms : List (List Piece × Tree)) :
    sealedText? (m :: m' :: ms) = none := by
  obtain ⟨name, t⟩ := m
  cases t <;> rfl

theorem Value.ofTree?_string (levels : Nat) (pieces : List Piece) :
    Value.ofTree? levels (.string pieces) = (decodePieces? pieces).map .string :=
  rfl

end LoadRig.Json
