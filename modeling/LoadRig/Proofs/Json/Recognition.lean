import LoadRig.Proofs.Json.Reading
/-!
# Only spellings are read

The other direction of `LoadRig.Proofs.Json.Reading`: whatever the reader takes off a text is a spelling
of the tree that it gives back, and what it leaves stood behind that. Both directions together say that
the reader accepts the texts of the grammar and no others, and that a text spells at most one tree.

## Main results

* `LoadRig.Json.spelled_of_readNumeral?`, `LoadRig.Json.literal_of_readPieces?` — numbers and strings.
* `LoadRig.Json.sound` — values, items and members, for any number of steps.
* `LoadRig.Json.parse?_eq_some_iff` — whole texts.
-/

namespace LoadRig.Json

open LoadRig.Text

theorem exists_blanks (cs : List Char) : ∃ b, Blanks b ∧ cs = b ++ skipSpace cs :=
  ⟨cs.takeWhile isSpace, fun _ hc => List.mem_takeWhile_imp hc, (List.takeWhile_append_dropWhile).symm⟩

/-! ### Numbers -/

theorem digitRun_takeWhile {cs : List Char} (h : (cs.takeWhile Char.isDigit).isEmpty = false) :
    DigitRun (cs.takeWhile Char.isDigit) :=
  ⟨by simpa using h, fun _ hc => List.mem_takeWhile_imp hc⟩

theorem digitRun_of_readWhole? {cs whole rest : List Char} (h : readWhole? cs = some (whole, rest)) :
    cs = whole ++ rest ∧ DigitRun whole ∧ (whole.head? = some '0' → whole = ['0']) := by
  rw [readWhole?.eq_def] at h
  split at h
  · split at h
    · cases h
    · obtain ⟨rfl, rfl⟩ := Prod.mk.inj (Option.some.inj h)
      exact ⟨rfl, ⟨by simp, by simp⟩, fun _ => rfl⟩
  · next hzero =>
    simp only at h
    split at h
    · cases h
    · next hne =>
      obtain ⟨rfl, rfl⟩ := Prod.mk.inj (Option.some.inj h)
      refine ⟨(List.takeWhile_append_dropWhile).symm, digitRun_takeWhile (by simpa using hne), ?_⟩
      intro hhead
      cases cs with
      | nil => cases hhead
      | cons c cs =>
        by_cases hc : c.isDigit = true
        · rw [List.takeWhile_cons_of_pos hc] at hhead
          exact absurd rfl (Option.some.inj hhead ▸ hzero cs)
        · rw [List.takeWhile_cons_of_neg hc] at hhead
          cases hhead

theorem spelled_of_readFraction? {cs rest : List Char} {fraction : Option (List Char)}
    (h : readFraction? cs = some (fraction, rest)) :
    ∃ f, cs = f ++ rest ∧ FractionSpelled fraction f := by
  rw [readFraction?.eq_def] at h
  split at h
  · next cs =>
    simp only at h
    split at h
    · cases h
    · next hne =>
      obtain ⟨rfl, rfl⟩ := Prod.mk.inj (Option.some.inj h)
      refine ⟨'.' :: cs.takeWhile Char.isDigit, ?_, .digits (digitRun_takeWhile (by simpa using hne))⟩
      rw [List.cons_append, List.takeWhile_append_dropWhile]
  · obtain ⟨rfl, rfl⟩ := Prod.mk.inj (Option.some.inj h)
    exact ⟨[], rfl, .absent⟩

theorem digitRun_of_readExponentDigits? {cs rest : List Char} {negative : Bool}
    {exponent : Option Int} (h : readExponentDigits? negative cs = some (exponent, rest)) :
    ∃ ds, DigitRun ds ∧ cs = ds ++ rest ∧
      exponent = some (if negative then -(digitsValue ds : Int) else digitsValue ds) := by
  rw [readExponentDigits?] at h
  simp only at h
  split at h
  · cases h
  · next hne =>
    obtain ⟨rfl, rfl⟩ := Prod.mk.inj (Option.some.inj h)
    exact ⟨_, digitRun_takeWhile (by simpa using hne), (List.takeWhile_append_dropWhile).symm, rfl⟩

theorem spelled_of_readExponent? {cs rest : List Char} {exponent : Option Int}
    (h : readExponent? cs = some (exponent, rest)) :
    ∃ e, cs = e ++ rest ∧ ExponentSpelled exponent e := by
  cases cs with
  | nil =>
    obtain ⟨rfl, rfl⟩ := Prod.mk.inj (Option.some.inj h)
    exact ⟨[], rfl, .absent⟩
  | cons l cs =>
    by_cases hl : l = 'e' ∨ l = 'E'
    · rw [readExponent?_of_letter hl] at h
      split at h
      · obtain ⟨ds, hds, rfl, rfl⟩ := digitRun_of_readExponentDigits? h
        exact ⟨l :: '-' :: ds, rfl, .minus hl hds⟩
      · obtain ⟨ds, hds, rfl, rfl⟩ := digitRun_of_readExponentDigits? h
        exact ⟨l :: '+' :: ds, rfl, .plus hl hds⟩
      · obtain ⟨ds, hds, rfl, rfl⟩ := digitRun_of_readExponentDigits? h
        exact ⟨l :: ds, rfl, .bare hl hds⟩
    · have hcond : (l == 'e' || l == 'E') = false := by simpa using hl
      simp only [readExponent?, hcond, Bool.false_eq_true, if_false] at h
      obtain ⟨rfl, rfl⟩ := Prod.mk.inj (Option.some.inj h)
      exact ⟨[], rfl, .absent⟩

theorem spelled_of_readNumeral? {cs rest : List Char} {n : Numeral}
    (h : readNumeral? cs = some (n, rest)) : ∃ core, cs = core ++ rest ∧ n.Spelled core := by
  unfold readNumeral? at h
  split at h
  next negative cs' heq =>
  have hsign : cs = signText negative ++ cs' := by
    split at heq
    · obtain ⟨rfl, rfl⟩ := Prod.mk.inj heq
      rfl
    · obtain ⟨rfl, rfl⟩ := Prod.mk.inj heq
      rfl
  simp only [Option.bind_eq_bind, Option.bind_eq_some_iff] at h
  obtain ⟨⟨whole, cs₁⟩, hwhole, ⟨fraction, cs₂⟩, hfraction, ⟨exponent, cs₃⟩, hexponent, h⟩ := h
  obtain ⟨rfl, rfl⟩ := Prod.mk.inj (Option.some.inj h)
  obtain ⟨hcs, hw, hz⟩ := digitRun_of_readWhole? hwhole
  obtain ⟨f, hcs₁, hf⟩ := spelled_of_readFraction? hfraction
  obtain ⟨e, hcs₂, he⟩ := spelled_of_readExponent? hexponent
  refine ⟨signText negative ++ (whole ++ (f ++ e)), ?_, .mk hw hz hf he⟩
  simp only at hcs₁ hcs₂
  rw [hsign, hcs, hcs₁, hcs₂]
  simp only [List.append_assoc]

/-! ### Strings -/

theorem literal_of_before {p : Piece} {ps : List Piece} {s cs rest : List Char} (hp : p.Spelled s)
    (ih : ∀ ps, readPieces? cs = some (ps, rest) → ∃ lit, cs = lit ++ rest ∧ Literal ps lit)
    (h : before p (readPieces? cs) = some (ps, rest)) :
    ∃ lit, s ++ cs = lit ++ rest ∧ Literal ps lit := by
  obtain ⟨⟨ps', rest'⟩, hread, h⟩ := Option.map_eq_some_iff.mp h
  obtain ⟨rfl, rfl⟩ := Prod.mk.inj h
  obtain ⟨lit, rfl, hlit⟩ := ih ps' hread
  exact ⟨s ++ lit, (List.append_assoc ..).symm, .piece hp hlit⟩

theorem literal_of_readPieces? {cs rest : List Char} {ps : List Piece}
    (h : readPieces? cs = some (ps, rest)) : ∃ lit, cs = lit ++ rest ∧ Literal ps lit := by
  induction cs using readPieces?.induct generalizing ps with
  | case1 => cases h
  | case2 cs =>
    obtain ⟨rfl, rfl⟩ := Prod.mk.inj (Option.some.inj h)
    exact ⟨['"'], rfl, .close⟩
  | case3 a b c d cs ih =>
    cases hu : unit? a b c d with
    | none =>
      rw [readPieces?, hu] at h
      cases h
    | some u =>
      rw [readPieces?_numeric hu] at h
      exact literal_of_before (.unit hu) (fun _ => ih) h
  | case4 e cs hnot ih =>
    cases hc : shortEscape? e with
    | none =>
      rw [readPieces?, hc] at h
      · cases h
      · exact hnot
    | some c =>
      rw [readPieces?_short hc] at h
      exact literal_of_before (.short hc) (fun _ => ih) h
  | case5 c cs hq hu hb hbad =>
    rw [readPieces?, if_pos hbad] at h
    · cases h
    · exact hq
    · exact hu
    · exact hb
  | case6 c cs hq hu hb hgood ih =>
    simp only [Bool.or_eq_true, decide_eq_true_eq, beq_iff_eq, not_or] at hgood
    rw [readPieces?_plain hq hgood.2 hgood.1] at h
    exact literal_of_before (.plain hq hgood.2 hgood.1) (fun _ => ih) h

/-! ### Values -/

theorem eq_append_of_dropText? {ts cs rest : List Char} (h : dropText? ts cs = some rest) :
    cs = ts ++ rest := by
  induction ts generalizing cs with
  | nil => exact Option.some.inj h
  | cons t ts ih =>
    cases cs with
    | nil => cases h
    | cons c cs =>
      rw [dropText?] at h
      split at h
      · next heq => rw [eq_of_beq heq, ih h, List.cons_append]
      · cases h

/-- Whatever is read as a value in so many steps is spelled. -/
def ValuesSpelled (fuel : Nat) : Prop :=
  ∀ cs t rest, Tree.read? fuel cs = some (t, rest) →
    ∃ b core, Blanks b ∧ cs = b ++ (core ++ rest) ∧ t.Spelled core

/-- Whatever is read as the values of an array in so many steps is spelled. -/
def ItemsSpelled (fuel : Nat) : Prop :=
  ∀ cs ts rest, Tree.readItems? fuel cs = some (ts, rest) →
    ∃ inner, cs = inner ++ ']' :: rest ∧ Tree.SpelledItems ts inner

/-- Whatever is read as the members of an object in so many steps is spelled. -/
def MembersSpelled (fuel : Nat) : Prop :=
  ∀ cs ms rest, Tree.readMembers? fuel cs = some (ms, rest) →
    ∃ inner, cs = inner ++ '}' :: rest ∧ Tree.SpelledMembers ms inner

section Steps

variable {fuel : Nat}

/-- A value and the blanks behind it, up to the next character. -/
theorem ValuesSpelled.padded (hv : ValuesSpelled fuel) {cs rest rest' : List Char} {t : Tree}
    (h : Tree.read? fuel cs = some (t, rest)) (hrest : skipSpace rest = rest') :
    ∃ p, cs = p ++ rest' ∧ t.Padded p := by
  obtain ⟨b, core, hb, rfl, hcore⟩ := hv cs t rest h
  obtain ⟨b', hb', hsplit⟩ := exists_blanks rest
  refine ⟨b ++ (core ++ b'), ?_, .mk hb hcore hb'⟩
  rw [hsplit, hrest]
  simp only [List.append_assoc]

theorem itemsSpelled_succ (hv : ValuesSpelled fuel) (hi : ItemsSpelled fuel) :
    ItemsSpelled (fuel + 1) := by
  intro cs ts rest h
  rw [Tree.readItems?] at h
  obtain ⟨⟨t, cs₁⟩, hread, h⟩ := Option.bind_eq_some_iff.mp h
  simp only at h
  split at h
  · next hskip =>
    obtain ⟨rfl, rfl⟩ := Prod.mk.inj (Option.some.inj h)
    obtain ⟨p, rfl, hp⟩ := hv.padded hread hskip
    exact ⟨p, rfl, .last hp⟩
  · next hskip =>
    obtain ⟨⟨ts', cs₂⟩, hmore, h⟩ := Option.bind_eq_some_iff.mp h
    obtain ⟨rfl, rfl⟩ := Prod.mk.inj (Option.some.inj h)
    obtain ⟨p, rfl, hp⟩ := hv.padded hread hskip
    obtain ⟨inner, rfl, hinner⟩ := hi _ _ _ hmore
    exact ⟨p ++ ',' :: inner, by simp, .cons hp hinner⟩
  · cases h

/-- A name, the blanks around it and the colon behind it. -/
theorem exists_name {cs cs₀ cs₁ cs₂ : List Char} {ps : List Piece} (hquote : skipSpace cs = '"' :: cs₀)
    (h : readPieces? cs₀ = some (ps, cs₁)) (hcolon : skipSpace cs₁ = ':' :: cs₂) :
    ∃ n, cs = n ++ ':' :: cs₂ ∧ NameSpelled ps n := by
  obtain ⟨b, hb, hcs⟩ := exists_blanks cs
  obtain ⟨lit, rfl, hlit⟩ := literal_of_readPieces? h
  obtain ⟨b', hb', hcs₁⟩ := exists_blanks cs₁
  refine ⟨_, ?_, .mk hb hlit hb'⟩
  rw [hcs, hquote, hcs₁, hcolon]
  simp only [List.append_assoc, List.cons_append]

theorem membersSpelled_succ (hv : ValuesSpelled fuel) (hm : MembersSpelled fuel) :
    MembersSpelled (fuel + 1) := by
  intro cs ms rest h
  rw [Tree.readMembers?.eq_def] at h
  simp only at h
  split at h
  · next hquote =>
    obtain ⟨⟨ps, cs₁⟩, hname, h⟩ := Option.bind_eq_some_iff.mp h
    simp only at h
    split at h
    · next hcolon =>
      obtain ⟨n, hcs, hn⟩ := exists_name hquote hname hcolon
      obtain ⟨⟨t, cs₃⟩, hread, h⟩ := Option.bind_eq_some_iff.mp h
      simp only at h
      split at h
      · next hskip =>
        obtain ⟨rfl, rfl⟩ := Prod.mk.inj (Option.some.inj h)
        obtain ⟨p, rfl, hp⟩ := hv.padded hread hskip
        exact ⟨n ++ ':' :: p, by rw [hcs]; simp, .last hn hp⟩
      · next hskip =>
        obtain ⟨⟨ms', cs₄⟩, hmore, h⟩ := Option.bind_eq_some_iff.mp h
        obtain ⟨rfl, rfl⟩ := Prod.mk.inj (Option.some.inj h)
        obtain ⟨p, rfl, hp⟩ := hv.padded hread hskip
        obtain ⟨inner, rfl, hinner⟩ := hm _ _ _ hmore
        exact ⟨n ++ ':' :: (p ++ ',' :: inner), by rw [hcs]; simp, .cons hn hp hinner⟩
      · cases h
    · cases h
  · cases h

theorem valuesSpelled_succ (hi : ItemsSpelled fuel) (hm : MembersSpelled fuel) :
    ValuesSpelled (fuel + 1) := by
  intro cs t rest h
  obtain ⟨b, hb, hcs⟩ := exists_blanks cs
  -- it is enough to look at what stands behind the blanks
  suffices hcore : ∃ core, skipSpace cs = core ++ rest ∧ t.Spelled core by
    obtain ⟨core, hskip, hcore⟩ := hcore
    exact ⟨b, core, hb, hskip ▸ hcs, hcore⟩
  rw [Tree.read?.eq_def] at h
  simp only at h
  split at h
  · cases h
  · next heq =>
    obtain ⟨⟨ps, cs₁⟩, hread, h⟩ := Option.bind_eq_some_iff.mp h
    obtain ⟨rfl, rfl⟩ := Prod.mk.inj (Option.some.inj h)
    obtain ⟨lit, rfl, hlit⟩ := literal_of_readPieces? hread
    exact ⟨'"' :: lit, heq, .string hlit⟩
  · next cs₁ heq =>
    obtain ⟨b', hb', hcs₁⟩ := exists_blanks cs₁
    split at h
    · next hbracket =>
      obtain ⟨rfl, rfl⟩ := Prod.mk.inj (Option.some.inj h)
      refine ⟨'[' :: (b' ++ [']']), ?_, .emptyArray hb'⟩
      rw [heq, hcs₁, hbracket]
      simp
    · obtain ⟨⟨ts, cs₂⟩, hread, h⟩ := Option.bind_eq_some_iff.mp h
      obtain ⟨rfl, rfl⟩ := Prod.mk.inj (Option.some.inj h)
      rw [readItems?_skipSpace] at hread
      obtain ⟨inner, rfl, hinner⟩ := hi _ _ _ hread
      exact ⟨'[' :: (inner ++ [']']), by rw [heq]; simp, .array hinner⟩
  · next cs₁ heq =>
    obtain ⟨b', hb', hcs₁⟩ := exists_blanks cs₁
    split at h
    · next hbrace =>
      obtain ⟨rfl, rfl⟩ := Prod.mk.inj (Option.some.inj h)
      refine ⟨'{' :: (b' ++ ['}']), ?_, .emptyObject hb'⟩
      rw [heq, hcs₁, hbrace]
      simp
    · obtain ⟨⟨ms, cs₂⟩, hread, h⟩ := Option.bind_eq_some_iff.mp h
      obtain ⟨rfl, rfl⟩ := Prod.mk.inj (Option.some.inj h)
      rw [readMembers?_skipSpace] at hread
      obtain ⟨inner, rfl, hinner⟩ := hm _ _ _ hread
      exact ⟨'{' :: (inner ++ ['}']), by rw [heq]; simp, .object hinner⟩
  · next heq =>
    obtain ⟨rest', hdrop, h⟩ := Option.map_eq_some_iff.mp h
    obtain ⟨rfl, rfl⟩ := Prod.mk.inj h
    exact ⟨_, by rw [heq, eq_append_of_dropText? hdrop]; rfl, .null⟩
  · next heq =>
    obtain ⟨rest', hdrop, h⟩ := Option.map_eq_some_iff.mp h
    obtain ⟨rfl, rfl⟩ := Prod.mk.inj h
    exact ⟨_, by rw [heq, eq_append_of_dropText? hdrop]; rfl, .yes⟩
  · next heq =>
    obtain ⟨rest', hdrop, h⟩ := Option.map_eq_some_iff.mp h
    obtain ⟨rfl, rfl⟩ := Prod.mk.inj h
    exact ⟨_, by rw [heq, eq_append_of_dropText? hdrop]; rfl, .no⟩
  · obtain ⟨⟨n, rest'⟩, hread, h⟩ := Option.map_eq_some_iff.mp h
    obtain ⟨rfl, rfl⟩ := Prod.mk.inj h
    obtain ⟨core, hcore, hn⟩ := spelled_of_readNumeral? hread
    exact ⟨core, hcore, .number hn⟩

end Steps

/-- **Only spellings are read**, in any number of steps. -/
theorem sound (fuel : Nat) : ValuesSpelled fuel ∧ ItemsSpelled fuel ∧ MembersSpelled fuel := by
  induction fuel with
  | zero =>
    refine ⟨?_, ?_, ?_⟩
    all_goals
      intro cs t rest h
      cases h
  | succ fuel ih =>
    obtain ⟨hv, hi, hm⟩ := ih
    exact ⟨valuesSpelled_succ hi hm, itemsSpelled_succ hv hi, membersSpelled_succ hv hm⟩

/-- **The reader accepts the texts of the grammar and no others.** -/
theorem parse?_eq_some_iff {t : Tree} {cs : List Char} : Tree.parse? cs = some t ↔ t.Padded cs := by
  refine ⟨fun h => ?_, parse?_of_padded⟩
  rw [Tree.parse?] at h
  split at h
  · next rest hread =>
    split at h
    · next hempty =>
      obtain rfl := Option.some.inj h
      obtain ⟨p, hcs, hp⟩ := (sound _).1.padded hread (List.isEmpty_iff.mp hempty)
      rw [List.append_nil] at hcs
      exact hcs ▸ hp
    · cases h
  · cases h

/-- A text spells at most one tree. -/
theorem Tree.Padded.unique {t u : Tree} {cs : List Char} (ht : t.Padded cs) (hu : u.Padded cs) :
    t = u :=
  Option.some.inj ((parse?_of_padded ht).symm.trans (parse?_of_padded hu))

end LoadRig.Json
