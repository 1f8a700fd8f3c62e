import LoadRig.Proofs.Json.Sealed
/-!
# Trees that mean the same

Two trees are alike if they differ in nothing but the order of members with different names and in how
the characters of names and strings are written. Blanks are no part of a tree, so texts that differ in
blanks only have the same tree to begin with. The relation is about what was written; that the reader of
values makes no difference between trees that are alike is a theorem.

Members of one name keep their order, since the last of them counts. And there is one name for which the
first place is not like the others, the name by which an object is sealed. Whether an object has it there
is the first argument of the relation: `Alike false` lets every member go anywhere, and `Alike true` keeps
sealed objects sealed and the others not.

## Main definitions

* `LoadRig.Json.valuesUnder` — the values of the members with a name.
* `LoadRig.Json.Tree.Alike` — trees that differ in order and spelling only.

## Main results

* `LoadRig.Json.Tree.Alike.ofTree?_eq` — trees that are alike have the same value.
-/

namespace LoadRig.Json

/-! ### Trees -/

/-- The values of the members whose names have the given code units, in order. -/
def valuesUnder (us : List Nat) (ms : List (List Piece × Tree)) : List Tree :=
  (ms.filter fun m => units m.1 = us).map (·.2)

theorem mem_valuesUnder {us : List Nat} {ms : List (List Piece × Tree)} {t : Tree} :
    t ∈ valuesUnder us ms ↔ ∃ m ∈ ms, units m.1 = us ∧ m.2 = t := by
  simp [valuesUnder, and_assoc]

theorem valuesUnder_cons (us : List Nat) (m : List Piece × Tree) (ms : List (List Piece × Tree)) :
    valuesUnder us (m :: ms)
      = if units m.1 = us then m.2 :: valuesUnder us ms else valuesUnder us ms := by
  by_cases h : units m.1 = us <;> simp [valuesUnder, h]

/-- Trees that differ in order and spelling only: strings may be spelled differently, and members of
different names may stand in another order. Where seals are kept, an object is sealed in both trees or
in neither. -/
inductive Tree.Alike (kept : Bool) : Tree → Tree → Prop
  | null : Tree.Alike kept .null .null
  | bool (b : Bool) : Tree.Alike kept (.bool b) (.bool b)
  | number (n : Numeral) : Tree.Alike kept (.number n) (.number n)
  | string {ps qs : List Piece} (h : units ps = units qs) :
      Tree.Alike kept (.string ps) (.string qs)
  | array {ts us : List Tree} (h : List.Forall₂ (Tree.Alike kept) ts us) :
      Tree.Alike kept (.array ts) (.array us)
  | object {ms ns : List (List Piece × Tree)}
      (h : ∀ us, List.Forall₂ (Tree.Alike kept) (valuesUnder us ms) (valuesUnder us ns))
      (hseal : kept = true → isSealed ms = isSealed ns) :
      Tree.Alike kept (.object ms) (.object ns)

/-- A tree is like itself. -/
theorem Tree.Alike.refl (kept : Bool) (t : Tree) : t.Alike kept t := by
  induction t using Tree.elim with
  | null => exact .null
  | bool b => exact .bool b
  | number n => exact .number n
  | string ps => exact .string rfl
  | array ts ih => exact .array (List.forall₂_same.mpr ih)
  | object ms ih =>
    refine .object (fun us => List.forall₂_same.mpr fun t ht => ?_) fun _ => rfl
    obtain ⟨m, hm, -, rfl⟩ := mem_valuesUnder.mp ht
    exact ih m hm

/-- Two members with different names may change places. -/
theorem valuesUnder_swap {m n : List Piece × Tree} (h : units m.1 ≠ units n.1) (us : List Nat) :
    valuesUnder us [m, n] = valuesUnder us [n, m] := by
  simp only [valuesUnder_cons]
  split_ifs with hm hn
  · exact absurd (hm.trans hn.symm) h
  all_goals rfl

/-! ### What is in a spelled tree is spelled -/

/-- A tree that some text spells. -/
def Tree.Spellable (t : Tree) : Prop := ∃ cs, t.Spelled cs

theorem Tree.Padded.spellable {t : Tree} {cs : List Char} (h : t.Padded cs) : t.Spellable := by
  cases h with
  | mk _ h _ => exact ⟨_, h⟩

theorem Tree.SpelledWithin.spellable {n : Nat} {t : Tree} (h : t.SpelledWithin n) : t.Spellable :=
  h.imp fun _ h => h.1

theorem Tree.Spellable.exists_within {t : Tree} (h : t.Spellable) : ∃ n, t.SpelledWithin n := by
  obtain ⟨cs, h⟩ := h
  exact ⟨cs.length, cs, h, Nat.le_refl _⟩

theorem Tree.Spellable.items {ts : List Tree} (h : (Tree.array ts).Spellable) :
    ∀ t ∈ ts, t.Spellable := by
  obtain ⟨n, h⟩ := h.exists_within
  exact fun t ht => (h.items t ht).spellable

theorem Tree.Spellable.members {ms : List (List Piece × Tree)} (h : (Tree.object ms).Spellable) :
    ∀ m ∈ ms, (∃ lit, Literal m.1 lit) ∧ m.2.Spellable := by
  obtain ⟨n, h⟩ := h.exists_within
  exact fun m hm => (h.members m hm).imp_right Tree.SpelledWithin.spellable

/-! ### Values -/

/-- What is read under a name is what stands under its code units. -/
theorem readUnder_eq {β : Type} {read? : Tree → Option β} {ms : List (List Piece × Tree)}
    {rs : List (List Char × β)} (hnames : ∀ m ∈ ms, ∃ lit, Literal m.1 lit)
    (h : ms.mapM (readMember? read?) = some rs) (name : List Char) :
    readUnder name rs = (valuesUnder (name.flatMap codeUnits) ms).filterMap read? := by
  induction mapM_eq_some_iff.mp h with
  | nil => rfl
  | @cons m r ms rs hm hms ih =>
    obtain ⟨⟨lit, hlit⟩, hnames⟩ := List.forall_mem_cons.mp hnames
    obtain ⟨hname, hvalue⟩ := readMember?_eq_some_iff.mp hm
    have hunits : units m.1 = name.flatMap codeUnits ↔ r.1 = name := by
      rw [← hlit.decodePieces?_eq_some_iff, hname, Option.some.injEq]
    rw [valuesUnder_cons, readUnder_cons, ih hnames (mapM_eq_some_iff.mpr hms)]
    by_cases heq : r.1 = name
    · rw [if_pos heq, if_pos (hunits.mpr heq), List.filterMap_cons_some hvalue]
    · rw [if_neg heq, if_neg (hunits.not.mpr heq)]

/-- Two lists of members agree if under every name the same is read, one member after the other. -/
def Agree (levels : Nat) (ms ns : List (List Piece × Tree)) : Prop :=
  ∀ us, (valuesUnder us ms).map (Value.ofTree? levels)
    = (valuesUnder us ns).map (Value.ofTree? levels)

section Agree

variable {levels : Nat} {ms ns : List (List Piece × Tree)}

/-- If the members of one list can be read, so can those of a list that agrees with it. -/
theorem Agree.exists_mapM (h : Agree levels ms ns)
    (hms : ∃ rs, ms.mapM (readMember? (Value.ofTree? levels)) = some rs) :
    ∃ rs, ns.mapM (readMember? (Value.ofTree? levels)) = some rs := by
  rw [exists_mapM_eq_some_iff] at hms ⊢
  intro n hn
  -- the other list has a member of this name with the same value
  have hmem : Value.ofTree? levels n.2 ∈ (valuesUnder (units n.1) ms).map (Value.ofTree? levels) := by
    rw [h]
    exact List.mem_map_of_mem (mem_valuesUnder.mpr ⟨n, hn, rfl, rfl⟩)
  obtain ⟨t, ht, heq⟩ := List.mem_map.mp hmem
  obtain ⟨m, hm, hunits, rfl⟩ := mem_valuesUnder.mp ht
  obtain ⟨r, hr⟩ := hms m hm
  obtain ⟨hname, hvalue⟩ := readMember?_eq_some_iff.mp hr
  refine ⟨r, readMember?_eq_some_iff.mpr ⟨?_, heq ▸ hvalue⟩⟩
  rwa [decodePieces?_eq_ofUnits?, ← hunits, ← decodePieces?_eq_ofUnits?]

/-- Members that agree make the same object. -/
theorem Agree.ofTree?_eq (h : Agree levels ms ns) (hms : ∀ m ∈ ms, ∃ lit, Literal m.1 lit)
    (hns : ∀ n ∈ ns, ∃ lit, Literal n.1 lit) (hm : isSealed ms = false) (hn : isSealed ns = false) :
    Value.ofTree? (levels + 1) (.object ms) = Value.ofTree? (levels + 1) (.object ns) := by
  rw [Value.ofTree?_object levels hm, Value.ofTree?_object levels hn]
  cases hread : ms.mapM (readMember? (Value.ofTree? levels)) with
  | none =>
    cases hread' : ns.mapM (readMember? (Value.ofTree? levels)) with
    | none => rfl
    | some rs' =>
      obtain ⟨rs, hrs⟩ := Agree.exists_mapM (fun us => (h us).symm) ⟨rs', hread'⟩
      rw [hread] at hrs
      cases hrs
  | some rs =>
    obtain ⟨rs', hread'⟩ := h.exists_mapM ⟨rs, hread⟩
    have hgathered : gathered rs = gathered rs' := gathered_eq fun name => by
      rw [readUnder_eq hms hread, readUnder_eq hns hread', filterMap_eq_of_map_eq (h _)]
    rw [hread', Option.map_some, Option.map_some, hgathered]

end Agree

/-! ### Sealed objects -/

section Sealed

variable {kept : Bool} {ms ns : List (List Piece × Tree)}

/-- Lists of members that have as many under each name have as many at all. -/
theorem length_eq_of_valuesUnder {R : Tree → Tree → Prop}
    (h : ∀ us, List.Forall₂ R (valuesUnder us ms) (valuesUnder us ns)) : ms.length = ns.length := by
  have hcount (ms : List (List Piece × Tree)) (us : List Nat) :
      (ms.map fun m => units m.1).count us = (valuesUnder us ms).length := by
    rw [List.count, List.countP_map, List.countP_eq_length_filter, valuesUnder, List.length_map]
    exact congrArg List.length (List.filter_congr fun m _ => beq_eq_decide ..)
  have hperm : (ms.map fun m => units m.1).Perm (ns.map fun n => units n.1) :=
    List.perm_iff_count.mpr fun us => by rw [hcount, hcount, (h us).length_eq]
  simpa using hperm.length_eq

theorem sealedText?_eq_of_alike {ps qs : List Piece} {t u : Tree} (h : Tree.Alike kept t u) :
    sealedText? [(ps, t)] = sealedText? [(qs, u)] := by
  cases h with
  | string h => rw [sealedText?, sealedText?, decodePieces?_eq_ofUnits?, h,
      ← decodePieces?_eq_ofUnits?]
  | null | bool | number | array | object => rfl

/-- Objects whose members are alike have the same text in them. -/
theorem sealedText?_eq
    (h : ∀ us, List.Forall₂ (Tree.Alike kept) (valuesUnder us ms) (valuesUnder us ns)) :
    sealedText? ms = sealedText? ns := by
  have hlength := length_eq_of_valuesUnder h
  rcases ms with _ | ⟨m, _ | ⟨m', ms⟩⟩
  · rw [List.length_eq_zero_iff.mp hlength.symm]
  · obtain ⟨n, rfl⟩ := List.length_eq_one_iff.mp hlength.symm
    have hunder := h (units m.1)
    rw [valuesUnder_cons, if_pos rfl, valuesUnder_cons] at hunder
    split at hunder
    · cases hunder with
      | cons halike _ => exact sealedText?_eq_of_alike halike
    · cases hunder
  · rcases ns with _ | ⟨n, _ | ⟨n', ns⟩⟩
    · cases hlength
    · cases hlength
    · rw [sealedText?_cons_cons, sealedText?_cons_cons]

end Sealed

theorem map_eq_of_forall₂ {α β : Type} {R : α → α → Prop} {f : α → β} {l l' : List α}
    (h : List.Forall₂ R l l') (hf : ∀ a ∈ l, ∀ a' ∈ l', R a a' → f a = f a') :
    l.map f = l'.map f := by
  induction h with
  | nil => rfl
  | @cons a a' l l' ha _ ih =>
    rw [List.map_cons, List.map_cons, hf a (.head _) a' (.head _) ha,
      ih fun b hb b' hb' => hf b (.tail _ hb) b' (.tail _ hb')]

/-- **Trees that are alike have the same value**, or neither has one. -/
theorem Tree.Alike.ofTree?_eq {t u : Tree} (h : t.Alike true u) (ht : t.Spellable)
    (hu : u.Spellable) (levels : Nat) : Value.ofTree? levels t = Value.ofTree? levels u := by
  induction t using Tree.elim generalizing u levels with
  | null => cases h; rfl
  | bool b => cases h; rfl
  | number n => cases h; rfl
  | string ps =>
    cases h with
    | string h => rw [Value.ofTree?_string, Value.ofTree?_string, decodePieces?_eq_ofUnits?, h,
        ← decodePieces?_eq_ofUnits?]
  | array ts ih =>
    cases h with
    | @array _ us h =>
      cases levels with
      | zero => rfl
      | succ levels =>
        have hmap := map_eq_of_forall₂ h fun t htm u hum halike =>
          ih t htm halike (ht.items t htm) (hu.items u hum) levels
        rw [Value.ofTree?_array, Value.ofTree?_array, mapM_eq_of_map_eq hmap]
  | object ms ih =>
    cases h with
    | @object _ ns h hseal =>
      cases levels with
      | zero => rfl
      | succ levels =>
        have hseal := hseal rfl
        cases hm : isSealed ms with
        | true =>
          rw [Value.ofTree?_sealed levels hm, Value.ofTree?_sealed levels (hseal ▸ hm),
            sealedText?_eq h]
        | false =>
          have hagree : Agree levels ms ns := fun us =>
            map_eq_of_forall₂ (h us) fun t htm u hum halike => by
              obtain ⟨m, hm, -, rfl⟩ := mem_valuesUnder.mp htm
              obtain ⟨n, hn, -, rfl⟩ := mem_valuesUnder.mp hum
              exact ih m hm halike (ht.members m hm).2 (hu.members n hn).2 levels
          exact hagree.ofTree?_eq (fun m hm => (ht.members m hm).1) (fun n hn => (hu.members n hn).1)
            hm (hseal ▸ hm)

end LoadRig.Json
