import LoadRig.Proofs.Json.CodeUnits
import LoadRig.Proofs.Json.Members
import LoadRig.Proofs.Json.Recognition
/-!
# Texts inside texts

A sealed object stands for the value of the text in it, which may have sealed objects of its own. Such a
text is shorter than the one that it stands in: it is a string there, and every character of a string
takes at least one character to spell. So the reader of texts comes to an end, and the bound by which its
definition says so rules nothing out.

What holds of every value that can be put together from what was read holds of every value that is read,
however many texts were opened on the way.

## Main definitions

* `LoadRig.Json.Tree.SpelledWithin` — a tree that some text of bounded length spells.

## Main results

* `LoadRig.Json.Value.ofText?_eq` — the reader of texts without its bound.
* `LoadRig.Json.Value.ofTree?_induction` — induction over the values that are read.
-/

namespace LoadRig.Json

/-! ### Lengths -/

theorem length_le_of_decodePieces? {ps : List Piece} {cs : List Char}
    (h : decodePieces? ps = some cs) : cs.length ≤ ps.length := by
  induction ps using decodePieces?.induct generalizing cs with
  | case1 =>
    rw [← Option.some.inj h]
    exact Nat.le_refl 0
  | case2 c ps ih =>
    obtain ⟨cs', hcs', rfl⟩ := Option.map_eq_some_iff.mp h
    exact Nat.succ_le_succ (ih hcs')
  | case3 u hu v ps hv ih =>
    rw [decodePieces?, if_pos hu, if_pos hv] at h
    obtain ⟨cs', hcs', rfl⟩ := Option.map_eq_some_iff.mp h
    exact Nat.le_succ_of_le (Nat.succ_le_succ (ih hcs'))
  | case4 u hu v ps hv =>
    rw [decodePieces?, if_pos hu, if_neg hv] at h
    cases h
  | case5 u ps hu hps =>
    rw [decodePieces?.eq_def] at h
    simp only [hu, if_true] at h
    cases h
  | case6 u ps hh hl =>
    rw [decodePieces?.eq_def] at h
    simp only [hh, hl, Bool.false_eq_true, if_false, if_true] at h
    cases h
  | case7 u ps hh hl ih =>
    rw [decodePieces?.eq_def] at h
    simp only [hh, hl, Bool.false_eq_true, if_false] at h
    obtain ⟨cs', hcs', rfl⟩ := Option.map_eq_some_iff.mp h
    exact Nat.succ_le_succ (ih hcs')

theorem Literal.length_lt {ps : List Piece} {cs : List Char} (h : Literal ps cs) :
    ps.length < cs.length := by
  induction h with
  | close => exact Nat.one_pos
  | piece hp _ ih =>
    cases hp
    all_goals
      simp only [List.length_cons, List.length_append, List.length_nil]
      omega

/-- A tree that some text of at most `n` characters spells. -/
def Tree.SpelledWithin (n : Nat) (t : Tree) : Prop := ∃ cs, t.Spelled cs ∧ cs.length ≤ n

section Within

variable {n : Nat} {cs : List Char}

theorem Tree.Padded.within {t : Tree} (h : t.Padded cs) (hn : cs.length ≤ n) :
    t.SpelledWithin n := by
  cases h with
  | mk _ h _ =>
    refine ⟨_, h, ?_⟩
    simp only [List.length_append] at hn
    omega

theorem Tree.SpelledItems.within {ts : List Tree} (h : Tree.SpelledItems ts cs)
    (hn : cs.length ≤ n) : ∀ t ∈ ts, t.SpelledWithin n := by
  induction ts generalizing cs with
  | nil => cases h
  | cons t ts ih =>
    cases h with
    | last h => exact List.forall_mem_singleton.mpr (h.within hn)
    | cons h hs =>
      simp only [List.length_append, List.length_cons] at hn
      exact List.forall_mem_cons.mpr ⟨h.within (by omega), ih hs (by omega)⟩

theorem NameSpelled.literal {ps : List Piece} (h : NameSpelled ps cs) : ∃ lit, Literal ps lit := by
  cases h with
  | mk _ h _ => exact ⟨_, h⟩

theorem Tree.SpelledMembers.within {ms : List (List Piece × Tree)}
    (h : Tree.SpelledMembers ms cs) (hn : cs.length ≤ n) :
    ∀ m ∈ ms, (∃ lit, Literal m.1 lit) ∧ m.2.SpelledWithin n := by
  induction ms generalizing cs with
  | nil => cases h
  | cons m ms ih =>
    cases h with
    | last hname h =>
      simp only [List.length_append, List.length_cons] at hn
      exact List.forall_mem_singleton.mpr ⟨hname.literal, h.within (by omega)⟩
    | cons hname h hs =>
      simp only [List.length_append, List.length_cons] at hn
      exact List.forall_mem_cons.mpr ⟨⟨hname.literal, h.within (by omega)⟩, ih hs (by omega)⟩

theorem Tree.SpelledWithin.items {ts : List Tree} (h : (Tree.array ts).SpelledWithin n) :
    ∀ t ∈ ts, t.SpelledWithin n := by
  obtain ⟨cs, h, hn⟩ := h
  cases h with
  | emptyArray => simp
  | array h =>
    simp only [List.length_cons, List.length_append] at hn
    exact h.within (by omega)

theorem Tree.SpelledWithin.members {ms : List (List Piece × Tree)}
    (h : (Tree.object ms).SpelledWithin n) :
    ∀ m ∈ ms, (∃ lit, Literal m.1 lit) ∧ m.2.SpelledWithin n := by
  obtain ⟨cs, h, hn⟩ := h
  cases h with
  | emptyObject => simp
  | object h =>
    simp only [List.length_cons, List.length_append] at hn
    exact h.within (by omega)

/-- **The text in a sealed object is shorter** than what the object is spelled by. -/
theorem Tree.SpelledWithin.length_sealedText? {ms : List (List Piece × Tree)}
    (h : (Tree.object ms).SpelledWithin n) {inner : List Char} (hi : sealedText? ms = some inner) :
    inner.length < n := by
  unfold sealedText? at hi
  split at hi
  · next name ps =>
    obtain ⟨-, cs, hps, hn⟩ := h.members _ (List.mem_singleton_self _)
    cases hps with
    | string hlit =>
      have hdecoded := length_le_of_decodePieces? hi
      have hliteral := hlit.length_lt
      simp only [List.length_cons] at hn
      omega
  · cases hi

end Within

/-! ### The reader of texts -/

section Reading

variable {f g : List Char → Option Value} {n : Nat}

theorem mapM_congr {α β : Type} {f g : α → Option β} {l : List α} (h : ∀ a ∈ l, f a = g a) :
    l.mapM f = l.mapM g := by
  induction l with
  | nil => rfl
  | cons a l ih =>
    obtain ⟨ha, hl⟩ := List.forall_mem_cons.mp h
    rw [List.mapM_cons, List.mapM_cons, ha, ih hl]

/-- What a tree is read as depends on what is read of shorter texts only. -/
theorem Value.readTree?_congr {t : Tree} (h : t.SpelledWithin n)
    (hfg : ∀ inner : List Char, inner.length < n → f inner = g inner) (levels : Nat) :
    readTree? f levels t = readTree? g levels t := by
  induction t using Tree.elim generalizing levels with
  | null | bool | number | string => rfl
  | array ts ih =>
    cases levels with
    | zero => rfl
    | succ levels =>
      rw [readTree?_array, readTree?_array, mapM_congr fun t ht => ih t ht (h.items t ht) levels]
  | object ms ih =>
    cases levels with
    | zero => rfl
    | succ levels =>
      cases hsealed : isSealed ms with
      | true =>
        rw [readTree?_sealed f levels hsealed, readTree?_sealed g levels hsealed]
        cases hi : sealedText? ms with
        | none => rfl
        | some inner => exact hfg inner (h.length_sealedText? hi)
      | false =>
        have hmember : ∀ m ∈ ms, readMember? (readTree? f levels) m
            = readMember? (readTree? g levels) m := fun m hm => by
          rw [readMember?, readMember?, ih m hm (h.members m hm).2 levels]
        rw [readTree?_object f levels hsealed, readTree?_object g levels hsealed,
          mapM_congr hmember]

/-- **The value of a text is the value of its tree.** -/
theorem Value.ofText?_eq (cs : List Char) :
    ofText? cs = (Tree.parse? cs).bind (ofTree? deepestText) := by
  rw [ofText?]
  cases hparse : Tree.parse? cs with
  | none => rfl
  | some t =>
    refine readTree?_congr ((parse?_eq_some_iff.mp hparse).within (Nat.le_refl _)) ?_ deepestText
    intro inner hinner
    rw [if_pos hinner]

end Reading

/-! ### Values that are read -/

/-- What a value that was read is made of, so far as it shows: the items and members of a property
`P`, and an object that is not sealed. -/
structure Value.Made (P : Value → Prop) : Prop where
  null : P .null
  bool (b : Bool) : P (.bool b)
  number (n : Numeral) (v : Value) (h : n.value? = some v) : P v
  string (s : List Char) : P (.string s)
  array (vs : List Value) (h : ∀ v ∈ vs, P v) : P (.array vs)
  object (ms : List (List Piece × Tree)) (rs : List (List Char × Value))
    (hsealed : isSealed ms = false)
    (hnames : List.Forall₂ (fun m r => decodePieces? m.1 = some r.1) ms rs)
    (h : ∀ r ∈ rs, P r.2) : P (.object (gathered rs))

section Induction

variable {P : Value → Prop} {open? : List Char → Option Value}

theorem Value.Made.readTree? (hP : Made P) (hopen : ∀ s v, open? s = some v → P v) {levels : Nat}
    {t : Tree} {v : Value} (h : readTree? open? levels t = some v) : P v := by
  induction t using Tree.elim generalizing levels v with
  | null =>
    obtain rfl := Option.some.inj h
    exact hP.null
  | bool b =>
    obtain rfl := Option.some.inj h
    exact hP.bool b
  | number n => exact hP.number n v h
  | string ps =>
    obtain ⟨s, -, rfl⟩ := Option.map_eq_some_iff.mp h
    exact hP.string s
  | array ts ih =>
    cases levels with
    | zero => cases h
    | succ levels =>
      rw [readTree?_array] at h
      obtain ⟨vs, hread, rfl⟩ := Option.map_eq_some_iff.mp h
      refine hP.array vs fun v hv => ?_
      obtain ⟨t, ht, hread⟩ := exists_of_mem_of_mapM hread hv
      exact ih t ht hread
  | object ms ih =>
    cases levels with
    | zero => cases h
    | succ levels =>
      cases hsealed : isSealed ms with
      | true =>
        rw [readTree?_sealed open? levels hsealed] at h
        obtain ⟨s, -, h⟩ := Option.bind_eq_some_iff.mp h
        exact hopen s v h
      | false =>
        rw [readTree?_object open? levels hsealed] at h
        obtain ⟨rs, hread, rfl⟩ := Option.map_eq_some_iff.mp h
        refine hP.object ms rs hsealed ?_ fun r hr => ?_
        · exact (mapM_eq_some_iff.mp hread).imp fun _ _ hm => (readMember?_eq_some_iff.mp hm).1
        · obtain ⟨m, hm, hmember⟩ := exists_of_mem_of_mapM hread hr
          exact ih m hm (readMember?_eq_some_iff.mp hmember).2

theorem Value.Made.ofText? (hP : Made P) {cs : List Char} {v : Value}
    (h : ofText? cs = some v) : P v := by
  induction hn : cs.length using Nat.strong_induction_on generalizing cs v with
  | _ n ih =>
    rw [Value.ofText?] at h
    obtain ⟨t, -, h⟩ := Option.bind_eq_some_iff.mp h
    refine hP.readTree? (fun s v hs => ?_) h
    split at hs
    · next hlt => exact ih s.length (hn ▸ hlt) hs rfl
    · cases hs

/-- **Induction over the values that are read.** -/
theorem Value.ofTree?_induction (hP : Made P) {levels : Nat} {t : Tree} {v : Value}
    (h : ofTree? levels t = some v) : P v :=
  hP.readTree? (fun _ _ hs => hP.ofText? hs) h

end Induction

end LoadRig.Json
