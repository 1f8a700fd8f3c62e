import LoadRig.Proofs.Json.Literal
import LoadRig.Proofs.Json.Sealed
import LoadRig.Proofs.Text.Digits
/-!
# What is written is read back

A value that was read has its members in order and no name twice. Such a value is written as a text of
the grammar, and the tree of that text has the same value again, as long as its numbers are integers: a
double is written in the shortest digits that denote it, which is another matter and not touched here.

Two things can come between. A value may have more brackets inside each other than the reader allows,
which happens if a part of it came out of a sealed object with levels of its own. And the name that seals
an object may come first in order, though it did not when the object was read; then what is written is
sealed. A value fits if it has neither, and values that do not fit are refused.

The members of an object may be written in any order; it is only by reading that they come into the
order of their names. So what is written for an object is a spelling whatever its order.

## Main definitions

* `LoadRig.Json.Value.Whole` — all numbers in a value are integers of sixty-four bits.
* `LoadRig.Json.Value.Canonical` — a value as the reader gives it, with whole numbers.
* `LoadRig.Json.Value.Fits` — a value that can be read where it was written.
* `LoadRig.Json.ReadBack` — a tree that was written for a value is read as this value or not at all.

## Main results

* `LoadRig.Json.spelled_array`, `LoadRig.Json.spelled_object` — what is written for brackets.
* `LoadRig.Json.Value.canonical_of_ofTree?` — values that were read are canonical.
* `LoadRig.Json.Value.Canonical.exists_tree` — canonical values are read back if they fit, and only then.
-/

namespace LoadRig.Json

open LoadRig.Text

/-! ### Integers -/

/-- The literal of an integer. -/
def Numeral.ofInt (n : Int) : Numeral :=
  { negative := n < 0, whole := digits n.natAbs, fraction := none, exponent := none }

theorem digitRun_digits (n : Nat) : DigitRun (digits n) :=
  ⟨digits_ne_nil n, fun _ => isDigit_of_mem_digits⟩

theorem digits_eq_of_head? {n : Nat} (h : (digits n).head? = some '0') : digits n = ['0'] := by
  rcases Nat.eq_zero_or_pos n with rfl | hpos
  · exact digits_of_lt (by decide)
  · exact absurd h (head?_digits hpos)

theorem Numeral.spelled_whole (negative : Bool) (n : Nat) :
    Numeral.Spelled ⟨negative, digits n, none, none⟩ (signText negative ++ digits n) := by
  have h : Numeral.Spelled ⟨negative, digits n, none, none⟩
      (signText negative ++ (digits n ++ ([] ++ []))) :=
    .mk (digitRun_digits n) digits_eq_of_head? .absent .absent
  rwa [List.append_nil, List.append_nil] at h

/-- An integer is written as its literal. -/
theorem Numeral.spelled_ofInt (n : Int) : (Numeral.ofInt n).Spelled (intDigits n) := by
  cases n with
  | ofNat n =>
    have hof : Numeral.ofInt (.ofNat n) = ⟨false, digits n, none, none⟩ := by simp [ofInt]
    exact hof ▸ spelled_whole false n
  | negSucc n =>
    have hof : Numeral.ofInt (.negSucc n) = ⟨true, digits (n + 1), none, none⟩ := by simp [ofInt]
    exact hof ▸ spelled_whole true (n + 1)

/-- The literal of an integer of sixty-four bits denotes it. -/
theorem Numeral.value?_ofInt {n : Int} (hlow : -(signedLimit : Int) ≤ n) (hhigh : n < wideLimit) :
    (Numeral.ofInt n).value? = some (.int n) := by
  cases n with
  | ofNat n =>
    have hwide : n < wideLimit := Int.ofNat_lt.mp hhigh
    simp [value?, ofInt, digitsValue_digits, hwide]
  | negSucc n =>
    have hsigned : n + 1 ≤ signedLimit := by omega
    simp [value?, ofInt, digitsValue_digits, hsigned]
    omega

/-- A literal denotes an integer or a double. -/
theorem Numeral.value?_cases {n : Numeral} {v : Value} (h : n.value? = some v) :
    (∃ k, v = .int k) ∨ ∃ x, v = .float x := by
  rw [value?] at h
  rcases ite_eq_iff.mp h with ⟨-, h⟩ | ⟨-, h⟩
  · exact .inl ⟨_, (Option.some.inj h).symm⟩
  · obtain ⟨x, -, rfl⟩ := Option.map_eq_some_iff.mp h
    exact .inr ⟨x, rfl⟩

/-! ### Brackets -/

theorem blanks_nil : Blanks [] := fun _ h => by cases h

theorem Tree.Spelled.padded {t : Tree} {cs : List Char} (h : t.Spelled cs) : t.Padded cs := by
  have hpadded : t.Padded ([] ++ (cs ++ [])) := .mk blanks_nil h blanks_nil
  simpa using hpadded

theorem nameSpelled_quoted (name : List Char) : NameSpelled (name.map pieceOf) (quoted name) := by
  have hname : NameSpelled (name.map pieceOf) ([] ++ ('"' :: (name.flatMap escape ++ ['"'] ++ []))) :=
    .mk blanks_nil (literal_quoted name) blanks_nil
  simpa [quoted] using hname

/-- A tree is spelled by what is written for a value. -/
def WrittenAs (t : Tree) (v : Value) : Prop := t.Spelled v.compact

/-- A member is spelled by what is written for its name and its value. -/
def MemberWrittenAs (m : List Piece × Tree) (r : List Char × Value) : Prop :=
  m.1 = r.1.map pieceOf ∧ WrittenAs m.2 r.2

theorem spelledItems_compactItems {ts : List Tree} {vs : List Value}
    (h : List.Forall₂ WrittenAs ts vs) (hne : vs ≠ []) :
    Tree.SpelledItems ts (Value.compactItems vs) := by
  induction h with
  | nil => exact absurd rfl hne
  | @cons t v ts vs ht hts ih =>
    cases hts with
    | nil => exact .last ht.padded
    | @cons u w ts vs hu hts => exact .cons ht.padded (ih (by simp))

/-- **What is written for an array is a spelling.** -/
theorem spelled_array {ts : List Tree} {vs : List Value} (h : List.Forall₂ WrittenAs ts vs) :
    WrittenAs (.array ts) (.array vs) := by
  cases h with
  | nil => exact .emptyArray blanks_nil
  | @cons t v ts vs ht hts => exact .array (spelledItems_compactItems (.cons ht hts) (by simp))

theorem spelledMembers_compactMembers {ms : List (List Piece × Tree)}
    {rs : List (List Char × Value)} (h : List.Forall₂ MemberWrittenAs ms rs) (hne : rs ≠ []) :
    Tree.SpelledMembers ms (Value.compactMembers rs) := by
  induction h with
  | nil => exact absurd rfl hne
  | @cons m r ms rs hm hms ih =>
    obtain ⟨ps, t⟩ := m
    obtain ⟨name, v⟩ := r
    obtain ⟨rfl, ht⟩ := hm
    cases hms with
    | nil => exact .last (nameSpelled_quoted name) ht.padded
    | @cons m r ms rs hm hms =>
      have hcons := Tree.SpelledMembers.cons (nameSpelled_quoted name) ht.padded (ih (by simp))
      simpa [Value.compactMembers] using hcons

/-- **What is written for an object is a spelling**, in whatever order its members stand. -/
theorem spelled_object {ms : List (List Piece × Tree)} {rs : List (List Char × Value)}
    (h : List.Forall₂ MemberWrittenAs ms rs) : WrittenAs (.object ms) (.object rs) := by
  cases h with
  | nil => exact .emptyObject blanks_nil
  | @cons m r ms rs hm hms => exact .object (spelledMembers_compactMembers (.cons hm hms) (by simp))

/-! ### Values that were read -/

/-- All numbers in a value are integers of sixty-four bits. -/
inductive Value.Whole : Value → Prop
  | null : Value.Whole .null
  | bool (b : Bool) : Value.Whole (.bool b)
  | int {n : Int} (hlow : -(signedLimit : Int) ≤ n) (hhigh : n < wideLimit) : Value.Whole (.int n)
  | string (s : List Char) : Value.Whole (.string s)
  | array {vs : List Value} (h : ∀ v ∈ vs, Value.Whole v) : Value.Whole (.array vs)
  | object {rs : List (List Char × Value)} (h : ∀ r ∈ rs, Value.Whole r.2) : Value.Whole (.object rs)

/-- A value as the reader gives it: its members are in order, and every object that has any has one
whose name does not seal it. All numbers in it are integers. -/
inductive Value.Canonical : Value → Prop
  | null : Value.Canonical .null
  | bool (b : Bool) : Value.Canonical (.bool b)
  | int {n : Int} (hlow : -(signedLimit : Int) ≤ n) (hhigh : n < wideLimit) :
      Value.Canonical (.int n)
  | string (s : List Char) : Value.Canonical (.string s)
  | array {vs : List Value} (h : ∀ v ∈ vs, Value.Canonical v) : Value.Canonical (.array vs)
  | object {rs : List (List Char × Value)} (hrs : Keyed.Ordered nameBefore rs)
      (hother : rs ≠ [] → ∃ r ∈ rs, r.1 ≠ sealName) (h : ∀ r ∈ rs, Value.Canonical r.2) :
      Value.Canonical (.object rs)

/-- A value with at most so many levels of brackets, in which the name that seals an object comes
first in none. -/
inductive Value.Fits : Nat → Value → Prop
  | null (levels : Nat) : Value.Fits levels .null
  | bool (levels : Nat) (b : Bool) : Value.Fits levels (.bool b)
  | int (levels : Nat) (n : Int) : Value.Fits levels (.int n)
  | float (levels : Nat) (x : Float) : Value.Fits levels (.float x)
  | string (levels : Nat) (s : List Char) : Value.Fits levels (.string s)
  | array {levels : Nat} {vs : List Value} (h : ∀ v ∈ vs, Value.Fits levels v) :
      Value.Fits (levels + 1) (.array vs)
  | object {levels : Nat} {rs : List (List Char × Value)} (hfirst : ∀ r ∈ rs.head?, r.1 ≠ sealName)
      (h : ∀ r ∈ rs, Value.Fits levels r.2) : Value.Fits (levels + 1) (.object rs)

theorem exists_forall₂ {α β : Type} {R : α → β → Prop} {l : List β} (h : ∀ b ∈ l, ∃ a, R a b) :
    ∃ l', List.Forall₂ R l' l := by
  induction l with
  | nil => exact ⟨[], .nil⟩
  | cons b l ih =>
    obtain ⟨⟨a, ha⟩, hl⟩ := List.forall_mem_cons.mp h
    obtain ⟨l', hl'⟩ := ih hl
    exact ⟨a :: l', .cons ha hl'⟩

theorem forall₂_imp_of_mem {α β : Type} {R S : α → β → Prop} {l : List α} {l' : List β}
    (h : List.Forall₂ R l l') (hi : ∀ a, ∀ b ∈ l', R a b → S a b) : List.Forall₂ S l l' := by
  induction h with
  | nil => exact .nil
  | @cons a b l l' ha _ ih =>
    exact .cons (hi a b (.head _) ha) (ih fun a' b' hb' => hi a' b' (.tail _ hb'))

theorem exists_of_forall₂ {α β : Type} {R : α → β → Prop} {l : List α} {l' : List β}
    (h : List.Forall₂ R l l') {b : β} (hb : b ∈ l') : ∃ a ∈ l, R a b := by
  induction h with
  | nil => cases hb
  | @cons a b' l l' ha _ ih =>
    rcases List.mem_cons.mp hb with rfl | hb
    · exact ⟨a, .head _, ha⟩
    · obtain ⟨a', ha', hr⟩ := ih hb
      exact ⟨a', .tail _ ha', hr⟩

/-! ### Reading what was written -/

/-- A tree that was written for a value is read as the value if that fits, and is refused if not. -/
structure ReadBack (t : Tree) (v : Value) : Prop where
  written : WrittenAs t v
  read {levels : Nat} (h : v.Fits levels) : Value.ofTree? levels t = some v
  fits {levels : Nat} {w : Value} (h : Value.ofTree? levels t = some w) : v.Fits levels

theorem readBack_array {ts : List Tree} {vs : List Value} (h : List.Forall₂ ReadBack ts vs) :
    ReadBack (.array ts) (.array vs) where
  written := spelled_array (h.imp fun _ _ ht => ht.written)
  read := by
    intro levels hfits
    cases hfits with
    | array hvs =>
      have hread := forall₂_imp_of_mem h fun t v hv ht => ht.read (hvs v hv)
      rw [Value.ofTree?_array, mapM_eq_some_iff.mpr hread]
      rfl
  fits := by
    intro levels w hw
    cases levels with
    | zero => cases hw
    | succ levels =>
      rw [Value.ofTree?_array] at hw
      obtain ⟨ws, hws, -⟩ := Option.map_eq_some_iff.mp hw
      refine .array fun v hv => ?_
      obtain ⟨t, ht, hback⟩ := exists_of_forall₂ h hv
      obtain ⟨w, hw⟩ := exists_mapM_eq_some_iff.mp ⟨ws, hws⟩ t ht
      exact hback.fits hw

/-- A member that was written, with its value read back. -/
def MemberReadBack (m : List Piece × Tree) (r : List Char × Value) : Prop :=
  m.1 = r.1.map pieceOf ∧ ReadBack m.2 r.2

section Object

variable {ms : List (List Piece × Tree)} {rs : List (List Char × Value)}

/-- What is written for an object is sealed if the name that seals it comes first. -/
theorem isSealed_iff (h : List.Forall₂ MemberReadBack ms rs) :
    isSealed ms = true ↔ ∃ r ∈ rs.head?, r.1 = sealName := by
  cases h with
  | nil => simp [isSealed]
  | @cons m r ms rs hm _ =>
    obtain ⟨ps, t⟩ := m
    obtain ⟨rfl, -⟩ := hm
    simp [isSealed, decodePieces?_map_pieceOf]

/-- What is written for an object with several members is refused where it is sealed. -/
theorem sealedText?_eq_none (h : List.Forall₂ MemberReadBack ms rs)
    (hother : rs ≠ [] → ∃ r ∈ rs, r.1 ≠ sealName) (hsealed : isSealed ms = true) :
    sealedText? ms = none := by
  obtain ⟨r, hr, hname⟩ := (isSealed_iff h).mp hsealed
  obtain ⟨rest, rfl⟩ : ∃ rest, rs = r :: rest := List.head?_eq_some_iff.mp hr
  obtain ⟨r', hr', hne⟩ := hother (by simp)
  cases rest with
  | nil => exact absurd (List.mem_singleton.mp hr' ▸ hname) hne
  | cons =>
    cases h with
    | cons _ h =>
      cases h with
      | cons _ _ => exact sealedText?_cons_cons ..

theorem readBack_object (h : List.Forall₂ MemberReadBack ms rs)
    (hrs : Keyed.Ordered nameBefore rs) (hother : rs ≠ [] → ∃ r ∈ rs, r.1 ≠ sealName) :
    ReadBack (.object ms) (.object rs) where
  written := spelled_object (h.imp fun _ _ hm => ⟨hm.1, hm.2.written⟩)
  read := by
    intro levels hfits
    cases hfits with
    | object hfirst hvs =>
      have hsealed : isSealed ms = false := by
        rw [← Bool.not_eq_true, isSealed_iff h]
        rintro ⟨r, hr, hname⟩
        exact hfirst r hr hname
      have hread : List.Forall₂ (fun m r => readMember? (Value.ofTree? _) m = some r) ms rs :=
        forall₂_imp_of_mem h fun m r hr hm => readMember?_eq_some_iff.mpr
          ⟨hm.1 ▸ decodePieces?_map_pieceOf r.1, hm.2.read (hvs r hr)⟩
      rw [Value.ofTree?_object _ hsealed, mapM_eq_some_iff.mpr hread, Option.map_some,
        gathered_of_ordered hrs]
  fits := by
    intro levels w hw
    cases levels with
    | zero => cases hw
    | succ levels =>
      cases hsealed : isSealed ms with
      | true =>
        rw [Value.ofTree?_sealed levels hsealed, sealedText?_eq_none h hother hsealed] at hw
        cases hw
      | false =>
        rw [Value.ofTree?_object levels hsealed] at hw
        obtain ⟨ws, hws, -⟩ := Option.map_eq_some_iff.mp hw
        refine .object (fun r hr hname => ?_) fun r hr => ?_
        · rw [(isSealed_iff h).mpr ⟨r, hr, hname⟩] at hsealed
          cases hsealed
        · obtain ⟨m, hm, hback⟩ := exists_of_forall₂ h hr
          obtain ⟨w, hw⟩ := exists_mapM_eq_some_iff.mp ⟨ws, hws⟩ m hm
          exact hback.2.fits (readMember?_eq_some_iff.mp hw).2

end Object

/-- **Canonical values are read back** if they fit. What is written for one is a spelling of a tree
that has the same value again, or none. -/
theorem Value.Canonical.exists_tree {v : Value} (h : v.Canonical) : ∃ t, ReadBack t v := by
  induction h with
  | null => exact ⟨.null, .null, fun _ => rfl, fun _ => .null _⟩
  | bool b =>
    exact ⟨.bool b, by cases b <;> constructor, fun _ => rfl, fun _ => .bool _ b⟩
  | @int n hlow hhigh =>
    exact ⟨.number (.ofInt n), .number (Numeral.spelled_ofInt n),
      fun _ => Numeral.value?_ofInt hlow hhigh, fun _ => .int _ n⟩
  | string s =>
    refine ⟨.string (s.map pieceOf), .string (literal_quoted s), fun _ => ?_, fun _ => .string _ s⟩
    rw [Value.ofTree?_string, decodePieces?_map_pieceOf]
    rfl
  | array _ ih =>
    obtain ⟨ts, hts⟩ := exists_forall₂ ih
    exact ⟨.array ts, readBack_array hts⟩
  | @object rs hrs hother _ ih =>
    have hmember : ∀ r ∈ rs, ∃ m, MemberReadBack m r := fun r hr =>
      (ih r hr).elim fun t ht => ⟨(r.1.map pieceOf, t), rfl, ht⟩
    obtain ⟨ms, hms⟩ := exists_forall₂ hmember
    exact ⟨.object ms, readBack_object hms hrs hother⟩

/-! ### What was read -/

/-- An object that was read has a member by whose name it is not sealed, if it has any. -/
theorem exists_ne_sealName {ms : List (List Piece × Tree)} {rs : List (List Char × Value)}
    (hsealed : isSealed ms = false)
    (hnames : List.Forall₂ (fun m r => decodePieces? m.1 = some r.1) ms rs) (hne : gathered rs ≠ []) :
    ∃ r ∈ gathered rs, r.1 ≠ sealName := by
  cases hnames with
  | nil => exact absurd rfl hne
  | @cons m r ms rs hm _ =>
    obtain ⟨ps, t⟩ := m
    have hname : r.1 ≠ sealName := by
      rintro heq
      rw [isSealed, show decodePieces? ps = some r.1 from hm, heq, beq_self_eq_true] at hsealed
      cases hsealed
    -- the last member of that name is in the object
    obtain ⟨v, hv⟩ : ∃ v, (readUnder r.1 (r :: rs)).getLast? = some v := by
      rw [readUnder_cons, if_pos rfl]
      exact ⟨_, List.getLast?_cons ..⟩
    rw [← get?_gathered] at hv
    exact ⟨(r.1, v), Keyed.mem_of_get? hv, hname⟩

theorem Value.made_canonical : Value.Made fun v => v.Whole → v.Canonical where
  null := fun _ => .null
  bool := fun b _ => .bool b
  number := by
    intro n v h hv
    rcases Numeral.value?_cases h with ⟨k, rfl⟩ | ⟨x, rfl⟩
    · cases hv with
      | int hlow hhigh => exact .int hlow hhigh
    · cases hv
  string := fun s _ => .string s
  array := by
    intro vs ih hv
    cases hv with
    | array hvs => exact .array fun v hv => ih v hv (hvs v hv)
  object := by
    intro ms rs hsealed hnames ih hv
    cases hv with
    | object hrs =>
      refine .object (ordered_gathered rs) (exists_ne_sealName hsealed hnames) fun r hr => ?_
      exact ih r (mem_of_mem_gathered hr) (hrs r hr)

/-- **Values that were read are canonical**, if their numbers are whole. -/
theorem Value.canonical_of_ofTree? {levels : Nat} {t : Tree} {v : Value}
    (h : Value.ofTree? levels t = some v) (hv : v.Whole) : v.Canonical :=
  Value.ofTree?_induction made_canonical h hv

end LoadRig.Json
