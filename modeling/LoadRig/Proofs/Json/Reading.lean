import LoadRig.Proofs.Json.Spelling
import LoadRig.Proofs.Text.Ahead
import Mathlib.Data.List.DropRight
/-!
# Every spelling is read

Whatever way a tree is spelled, it is read back as itself, at any depth and length, and the reader
stops right behind it. For a number this depends on what comes next, since a digit, a point or the
letter of an exponent would still belong to it; so the statements speak of a rest that begins with a
blank, a comma or a closing bracket, or is empty.

The reader counts its steps down from the length of the text. Every step uses up a character, so each
statement asks for no more steps than its piece of the text is long; for the inside of brackets one
more, which the opening bracket has paid for.

## Main definitions

* `LoadRig.Json.Ends` — what may come next.

## Main results

* `LoadRig.Json.readNumeral?_of_spelled`, `LoadRig.Json.readPieces?_of_literal` — numbers and strings.
* `LoadRig.Json.read?_of_spelled` — values.
* `LoadRig.Json.parse?_of_padded` — whole texts.
-/

namespace LoadRig.Json

open LoadRig.Text

/-! ### What may come next -/

/-- The characters that end a value. -/
def enders : List Char := [' ', '\t', '\n', '\r', ',', ']', '}']

/-- What may come behind a value: a blank, a comma, a closing bracket, or nothing. -/
def Ends (rest : List Char) : Prop := ∀ c ∈ rest.head?, c ∈ enders

theorem Ends.noneAhead {rest : List Char} (h : Ends rest) {p : Char → Bool}
    (hp : enders.any p = false) : NoneAhead p rest := fun c hc =>
  Bool.eq_false_iff.mpr (List.any_eq_false.mp hp c (h c hc))

theorem ends_nil : Ends [] := fun _ hc => by cases hc

theorem ends_cons {c : Char} (h : c ∈ enders) (rest : List Char) : Ends (c :: rest) := by
  intro c' hc'
  rwa [← Option.some.inj hc']

/-- Blanks may come before whatever may come next. -/
theorem Ends.blanks {b rest : List Char} (hb : Blanks b) (h : Ends rest) : Ends (b ++ rest) := by
  intro c hc
  rcases mem_head?_append hc with hc | hc
  · have hspace := hb c (List.mem_of_mem_head? hc)
    simp only [isSpace, Bool.or_eq_true, beq_iff_eq] at hspace
    rcases hspace with ((rfl | rfl) | rfl) | rfl <;> decide
  · exact h c hc

/-! ### Blanks -/

theorem skipSpace_cons {c : Char} (h : isSpace c = false) (cs : List Char) :
    skipSpace (c :: cs) = c :: cs :=
  List.dropWhile_cons_of_neg (by simp [h])

theorem isSpace_of_isDigit {c : Char} (h : c.isDigit = true) : isSpace c = false := by
  cases hs : isSpace c with
  | false => rfl
  | true =>
    simp only [isSpace, Bool.or_eq_true, beq_iff_eq] at hs
    rcases hs with ((rfl | rfl) | rfl) | rfl <;> simp at h

theorem skipSpace_blanks {b : List Char} (hb : Blanks b) (cs : List Char) :
    skipSpace (b ++ cs) = skipSpace cs :=
  List.dropWhile_append_of_pos hb

theorem skipSpace_skipSpace (cs : List Char) : skipSpace (skipSpace cs) = skipSpace cs :=
  List.dropWhile_idempotent _ cs

theorem skipSpace_blanks_cons {b : List Char} (hb : Blanks b) {c : Char} (h : isSpace c = false)
    (cs : List Char) : skipSpace (b ++ c :: cs) = c :: cs := by
  rw [skipSpace_blanks hb, skipSpace_cons h]

/-! ### Numbers -/

theorem readWhole?_of_digitRun {whole rest : List Char} (hw : DigitRun whole)
    (hz : whole.head? = some '0' → whole = ['0']) (hrest : NoneAhead Char.isDigit rest) :
    readWhole? (whole ++ rest) = some (whole, rest) := by
  obtain ⟨htake, hdrop⟩ := takeWhile_append_of_noneAhead hw.2 hrest
  by_cases h0 : whole.head? = some '0'
  · have hnone : rest.head?.any Char.isDigit = false := by
      cases hr : rest.head? with
      | none => rfl
      | some c => exact hrest c hr
    rw [hz h0]
    show (if rest.head?.any Char.isDigit = true then none else some (['0'], rest)) = _
    rw [hnone]
    rfl
  · simp only [readWhole?]
    split
    · next heq =>
      obtain ⟨c, cs, rfl⟩ := List.exists_cons_of_ne_nil hw.1
      exact absurd (congrArg some (List.cons.inj heq).1) h0
    · rw [htake, hdrop]
      simp [hw.1]

theorem readFraction?_of_spelled {fraction : Option (List Char)} {f rest : List Char}
    (hf : FractionSpelled fraction f) (hdigit : NoneAhead Char.isDigit rest)
    (hpoint : NoneAhead (· == '.') rest) : readFraction? (f ++ rest) = some (fraction, rest) := by
  cases hf with
  | absent =>
    rw [List.nil_append, readFraction?]
    · intro rest' h
      subst h
      simpa using hpoint '.' rfl
  | digits h =>
    obtain ⟨htake, hdrop⟩ := takeWhile_append_of_noneAhead h.2 hdigit
    rw [List.cons_append, readFraction?, htake, hdrop]
    simp [h.1]

theorem readExponentDigits?_of_digitRun {ds rest : List Char} (h : DigitRun ds)
    (hdigit : NoneAhead Char.isDigit rest) (negative : Bool) :
    readExponentDigits? negative (ds ++ rest)
      = some (some (if negative then -(digitsValue ds : Int) else digitsValue ds), rest) := by
  obtain ⟨htake, hdrop⟩ := takeWhile_append_of_noneAhead h.2 hdigit
  rw [readExponentDigits?, htake, hdrop]
  simp [h.1]

theorem readExponent?_of_letter {l : Char} (hl : l = 'e' ∨ l = 'E') (cs : List Char) :
    readExponent? (l :: cs) = match cs with
      | '-' :: rest => readExponentDigits? true rest
      | '+' :: rest => readExponentDigits? false rest
      | _ => readExponentDigits? false cs := by
  have hcond : (l == 'e' || l == 'E') = true := by rcases hl with rfl | rfl <;> rfl
  exact if_pos hcond

theorem readExponent?_of_spelled {exponent : Option Int} {e rest : List Char}
    (he : ExponentSpelled exponent e) (hdigit : NoneAhead Char.isDigit rest)
    (hletter : NoneAhead (fun c => c == 'e' || c == 'E') rest) :
    readExponent? (e ++ rest) = some (exponent, rest) := by
  cases he with
  | absent =>
    cases rest with
    | nil => rfl
    | cons c rest =>
      have hcond : (c == 'e' || c == 'E') = false := hletter c rfl
      simp only [List.nil_append, readExponent?, hcond, Bool.false_eq_true, if_false]
  | bare hl h =>
    rw [List.cons_append, readExponent?_of_letter hl]
    obtain ⟨d, ds, rfl⟩ := List.exists_cons_of_ne_nil h.1
    have hd : d.isDigit = true := h.2 d List.mem_cons_self
    split
    · next heq =>
      rw [List.cons_append] at heq
      rw [(List.cons.inj heq).1] at hd
      cases hd
    · next heq =>
      rw [List.cons_append] at heq
      rw [(List.cons.inj heq).1] at hd
      cases hd
    · exact readExponentDigits?_of_digitRun h hdigit false
  | plus hl h =>
    rw [List.cons_append, readExponent?_of_letter hl]
    exact readExponentDigits?_of_digitRun h hdigit false
  | minus hl h =>
    rw [List.cons_append, readExponent?_of_letter hl]
    exact readExponentDigits?_of_digitRun h hdigit true

theorem FractionSpelled.noneAhead {fraction : Option (List Char)} {f : List Char}
    (hf : FractionSpelled fraction f) {p : Char → Bool} (hp : p '.' = false) : NoneAhead p f := by
  intro c hc
  cases hf with
  | absent => cases hc
  | digits => rwa [← Option.some.inj hc]

theorem ExponentSpelled.noneAhead {exponent : Option Int} {e : List Char}
    (he : ExponentSpelled exponent e) {p : Char → Bool} (hp : p 'e' = false) (hp' : p 'E' = false) :
    NoneAhead p e := by
  have hletter : ∀ {l : Char}, l = 'e' ∨ l = 'E' → p l = false := by
    rintro l (rfl | rfl)
    · exact hp
    · exact hp'
  intro c hc
  cases he with
  | absent => cases hc
  | bare hl => rw [← Option.some.inj hc]; exact hletter hl
  | plus hl => rw [← Option.some.inj hc]; exact hletter hl
  | minus hl => rw [← Option.some.inj hc]; exact hletter hl

/-- **Every spelling of a number is read.** -/
theorem readNumeral?_of_spelled {n : Numeral} {cs rest : List Char} (h : n.Spelled cs)
    (hrest : Ends rest) : readNumeral? (cs ++ rest) = some (n, rest) := by
  cases h with
  | @mk negative whole fraction exponent f e hw hz hf he =>
    have hdigit : NoneAhead Char.isDigit rest := hrest.noneAhead (by decide)
    have hexp := readExponent?_of_spelled he hdigit (hrest.noneAhead (by decide))
    have hfrac := readFraction?_of_spelled hf
      ((he.noneAhead (by decide) (by decide)).append hdigit)
      ((he.noneAhead (by decide) (by decide)).append (hrest.noneAhead (by decide)))
    have hwhole := readWhole?_of_digitRun hw hz
      ((hf.noneAhead (by decide)).append ((he.noneAhead (by decide) (by decide)).append hdigit))
    rw [List.append_assoc, List.append_assoc, List.append_assoc]
    unfold readNumeral?
    cases negative with
    | true => simp [signText, hwhole, hfrac, hexp]
    | false =>
      obtain ⟨d, ds, rfl⟩ := List.exists_cons_of_ne_nil hw.1
      have hd : d ≠ '-' := by
        rintro rfl
        have := hw.2 '-' List.mem_cons_self
        cases this
      simp only [signText, Bool.false_eq_true, if_false, List.nil_append]
      split
      · next hminus => exact absurd (List.cons.inj hminus).1 hd
      · simp only [hwhole, Option.bind_eq_bind, Option.bind_some, hfrac, hexp]
        rfl

/-! ### Strings -/

/-- Puts one piece before what the rest of a literal was read as. -/
def before (p : Piece) (r : Option (List Piece × List Char)) : Option (List Piece × List Char) :=
  r.map fun (pieces, rest) => (p :: pieces, rest)

theorem readPieces?_short {e c : Char} (h : shortEscape? e = some c) (rest : List Char) :
    readPieces? ('\\' :: e :: rest) = before (.char c) (readPieces? rest) := by
  have hu : e ≠ 'u' := by
    rintro rfl
    simp [shortEscape?] at h
  rw [readPieces?]
  · rw [h]
    cases readPieces? rest <;> rfl
  · exact fun _ _ _ _ _ he => absurd he hu

theorem readPieces?_numeric {a b c d : Char} {u : Nat} (h : unit? a b c d = some u)
    (rest : List Char) :
    readPieces? ('\\' :: 'u' :: a :: b :: c :: d :: rest)
      = before (.unit u) (readPieces? rest) := by
  rw [readPieces?, h]
  cases readPieces? rest <;> rfl

theorem readPieces?_plain {c : Char} (hq : c ≠ '"') (hb : c ≠ '\\') (hc : ¬ c.toNat < 0x20)
    (rest : List Char) : readPieces? (c :: rest) = before (.char c) (readPieces? rest) := by
  rw [readPieces?]
  · rw [if_neg (by simp [hb]; omega)]
    cases readPieces? rest <;> rfl
  · exact hq
  · exact fun _ _ _ _ _ h _ => hb h
  · exact fun _ _ h _ => hb h

theorem readPieces?_of_piece {p : Piece} {s : List Char} (h : p.Spelled s) (rest : List Char) :
    readPieces? (s ++ rest) = before p (readPieces? rest) := by
  cases h with
  | plain hq hb hc => exact readPieces?_plain hq hb hc rest
  | short h => exact readPieces?_short h rest
  | unit h => exact readPieces?_numeric h rest

/-- **Every spelling of a string is read**, up to its closing quote. -/
theorem readPieces?_of_literal {ps : List Piece} {cs : List Char} (h : Literal ps cs)
    (rest : List Char) : readPieces? (cs ++ rest) = some (ps, rest) := by
  induction h with
  | close => rfl
  | piece hp _ ih =>
    rw [List.append_assoc, readPieces?_of_piece hp, ih]
    rfl

/-! ### One step of the reader -/

section Steps

variable {fuel : Nat} {cs cs' rest rest' : List Char} {t : Tree}

theorem read?_skipSpace (fuel : Nat) (cs : List Char) :
    Tree.read? fuel (skipSpace cs) = Tree.read? fuel cs := by
  cases fuel with
  | zero => rfl
  | succ fuel => rw [Tree.read?, Tree.read?, skipSpace_skipSpace]

theorem read?_blanks {b : List Char} (hb : Blanks b) (fuel : Nat) (cs : List Char) :
    Tree.read? fuel (b ++ cs) = Tree.read? fuel cs := by
  rw [← read?_skipSpace, skipSpace_blanks hb, read?_skipSpace]

theorem readItems?_skipSpace (fuel : Nat) (cs : List Char) :
    Tree.readItems? fuel (skipSpace cs) = Tree.readItems? fuel cs := by
  cases fuel with
  | zero => rfl
  | succ fuel => rw [Tree.readItems?, Tree.readItems?, read?_skipSpace]

theorem readMembers?_skipSpace (fuel : Nat) (cs : List Char) :
    Tree.readMembers? fuel (skipSpace cs) = Tree.readMembers? fuel cs := by
  cases fuel with
  | zero => rfl
  | succ fuel => rw [Tree.readMembers?, Tree.readMembers?, skipSpace_skipSpace]

/-- A closing bracket begins no value. -/
theorem read?_bracket (fuel : Nat) (cs : List Char) : Tree.read? fuel (']' :: cs) = none := by
  cases fuel with
  | zero => rfl
  | succ fuel =>
    rw [Tree.read?, skipSpace_cons (by decide)]
    rfl

theorem readItems?_bracket (fuel : Nat) (cs : List Char) :
    Tree.readItems? fuel (']' :: cs) = none := by
  cases fuel with
  | zero => rfl
  | succ fuel =>
    rw [Tree.readItems?, read?_bracket]
    rfl

/-- A closing brace begins no member. -/
theorem readMembers?_brace (fuel : Nat) (cs : List Char) :
    Tree.readMembers? fuel ('}' :: cs) = none := by
  cases fuel with
  | zero => rfl
  | succ fuel =>
    rw [Tree.readMembers?, skipSpace_cons (by decide)]
    rfl

/-- An array is read if what is behind its bracket is read as values. -/
theorem read?_of_readItems? {ts : List Tree} (h : Tree.readItems? fuel cs = some (ts, rest)) :
    Tree.read? (fuel + 1) ('[' :: cs) = some (.array ts, rest) := by
  rw [Tree.read?, skipSpace_cons (by decide)]
  simp only
  split
  · next heq =>
    rw [← readItems?_skipSpace, heq, readItems?_bracket] at h
    cases h
  · rw [readItems?_skipSpace, h]
    rfl

/-- An object is read if what is behind its brace is read as members. -/
theorem read?_of_readMembers? {ms : List (List Piece × Tree)}
    (h : Tree.readMembers? fuel cs = some (ms, rest)) :
    Tree.read? (fuel + 1) ('{' :: cs) = some (.object ms, rest) := by
  rw [Tree.read?, skipSpace_cons (by decide)]
  simp only
  split
  · next heq =>
    rw [← readMembers?_skipSpace, heq, readMembers?_brace] at h
    cases h
  · rw [readMembers?_skipSpace, h]
    rfl

theorem readItems?_last (h : Tree.read? fuel cs = some (t, rest))
    (hrest : skipSpace rest = ']' :: rest') :
    Tree.readItems? (fuel + 1) cs = some ([t], rest') := by
  rw [Tree.readItems?, h]
  simp [hrest]

theorem readItems?_cons {ts : List Tree} (h : Tree.read? fuel cs = some (t, rest))
    (hrest : skipSpace rest = ',' :: rest')
    (hs : Tree.readItems? fuel rest' = some (ts, cs')) :
    Tree.readItems? (fuel + 1) cs = some (t :: ts, cs') := by
  rw [Tree.readItems?, h]
  simp [hrest, hs]

/-- What is read of a name and its colon. -/
theorem readMembers?_of_name {ps : List Piece} {n : List Char} (hn : NameSpelled ps n) :
    Tree.readMembers? (fuel + 1) (n ++ ':' :: cs) = (do
      let (value, rest) ← Tree.read? fuel cs
      match skipSpace rest with
      | '}' :: rest => return ([(ps, value)], rest)
      | ',' :: rest =>
        let (members, rest) ← Tree.readMembers? fuel rest
        return ((ps, value) :: members, rest)
      | _ => none) := by
  cases hn with
  | mk hb h hb' =>
    have hpieces := readPieces?_of_literal h
    rw [Tree.readMembers?, List.append_assoc, List.cons_append, List.append_assoc,
      skipSpace_blanks_cons hb (by decide)]
    simp only [hpieces, Option.bind_eq_bind, Option.bind_some]
    rw [skipSpace_blanks_cons hb' (by decide)]
    rfl

theorem readMembers?_last {ps : List Piece} {n : List Char} (hn : NameSpelled ps n)
    (h : Tree.read? fuel cs = some (t, rest)) (hrest : skipSpace rest = '}' :: rest') :
    Tree.readMembers? (fuel + 1) (n ++ ':' :: cs) = some ([(ps, t)], rest') := by
  rw [readMembers?_of_name hn, h]
  simp [hrest]

theorem readMembers?_cons {ps : List Piece} {n : List Char} {ms : List (List Piece × Tree)}
    (hn : NameSpelled ps n) (h : Tree.read? fuel cs = some (t, rest))
    (hrest : skipSpace rest = ',' :: rest')
    (hs : Tree.readMembers? fuel rest' = some (ms, cs')) :
    Tree.readMembers? (fuel + 1) (n ++ ':' :: cs) = some ((ps, t) :: ms, cs') := by
  rw [readMembers?_of_name hn, h]
  simp [hrest, hs]

end Steps

/-! ### Whole trees -/

/-- A text is read as a tree wherever it stands. -/
def Reads (t : Tree) (cs : List Char) : Prop :=
  ∀ fuel rest, cs.length ≤ fuel → Ends rest → Tree.read? fuel (cs ++ rest) = some (t, rest)

/-- A text with blanks at its end is read as a tree; the reader stops before these blanks. -/
def ReadsPadded (t : Tree) (cs : List Char) : Prop :=
  ∀ fuel rest, cs.length ≤ fuel → Ends rest →
    ∃ rest', Tree.read? fuel (cs ++ rest) = some (t, rest') ∧ skipSpace rest' = skipSpace rest

/-- A text is read as the values of an array, up to its closing bracket. -/
def ReadsItems (ts : List Tree) (cs : List Char) : Prop :=
  ∀ fuel rest, cs.length < fuel → Tree.readItems? fuel (cs ++ ']' :: rest) = some (ts, rest)

/-- A text is read as the members of an object, up to its closing brace. -/
def ReadsMembers (ms : List (List Piece × Tree)) (cs : List Char) : Prop :=
  ∀ fuel rest, cs.length < fuel → Tree.readMembers? fuel (cs ++ '}' :: rest) = some (ms, rest)

section Trees

variable {t : Tree} {ts : List Tree} {ms : List (List Piece × Tree)} {ps : List Piece}
  {n cs cs' : List Char}

theorem reads_null : Reads .null ['n', 'u', 'l', 'l'] := by
  intro fuel rest hfuel _
  obtain ⟨fuel, rfl⟩ := Nat.exists_eq_add_one.mpr (Nat.zero_lt_of_lt hfuel)
  rw [List.cons_append, Tree.read?, skipSpace_cons (by decide)]
  rfl

theorem reads_yes : Reads (.bool true) ['t', 'r', 'u', 'e'] := by
  intro fuel rest hfuel _
  obtain ⟨fuel, rfl⟩ := Nat.exists_eq_add_one.mpr (Nat.zero_lt_of_lt hfuel)
  rw [List.cons_append, Tree.read?, skipSpace_cons (by decide)]
  rfl

theorem reads_no : Reads (.bool false) ['f', 'a', 'l', 's', 'e'] := by
  intro fuel rest hfuel _
  obtain ⟨fuel, rfl⟩ := Nat.exists_eq_add_one.mpr (Nat.zero_lt_of_lt hfuel)
  rw [List.cons_append, Tree.read?, skipSpace_cons (by decide)]
  rfl

/-- A number begins with its sign or with a digit, and with nothing else. -/
theorem Numeral.Spelled.exists_cons {n : Numeral} (h : n.Spelled cs) :
    ∃ c cs', cs = c :: cs' ∧ (c = '-' ∨ c.isDigit = true) := by
  cases h with
  | @mk negative whole fraction exponent f e hw hz hf he =>
    cases negative with
    | true => exact ⟨'-', _, rfl, .inl rfl⟩
    | false =>
      obtain ⟨d, ds, rfl⟩ := List.exists_cons_of_ne_nil hw.1
      exact ⟨d, _, rfl, .inr (hw.2 d List.mem_cons_self)⟩

theorem reads_number {n : Numeral} (h : n.Spelled cs) : Reads (.number n) cs := by
  intro fuel rest hfuel hrest
  have hnum := readNumeral?_of_spelled h hrest
  obtain ⟨c, cs, rfl, hc⟩ := h.exists_cons
  obtain ⟨fuel, rfl⟩ := Nat.exists_eq_add_one.mpr (Nat.zero_lt_of_lt hfuel)
  have hspace : isSpace c = false := by
    rcases hc with rfl | hc
    · rfl
    · exact isSpace_of_isDigit hc
  rw [List.cons_append] at hnum ⊢
  rw [Tree.read?, skipSpace_cons hspace]
  -- no other kind of value begins like a number
  split
  · next heq => cases heq
  · next heq => rw [(List.cons.inj heq).1] at hc; simp at hc
  · next heq => rw [(List.cons.inj heq).1] at hc; simp at hc
  · next heq => rw [(List.cons.inj heq).1] at hc; simp at hc
  · next heq => rw [(List.cons.inj heq).1] at hc; simp at hc
  · next heq => rw [(List.cons.inj heq).1] at hc; simp at hc
  · next heq => rw [(List.cons.inj heq).1] at hc; simp at hc
  · rw [hnum]
    rfl

theorem reads_string (h : Literal ps cs) : Reads (.string ps) ('"' :: cs) := by
  intro fuel rest hfuel _
  obtain ⟨fuel, rfl⟩ := Nat.exists_eq_add_one.mpr (Nat.zero_lt_of_lt hfuel)
  rw [List.cons_append, Tree.read?, skipSpace_cons (by decide)]
  simp only [readPieces?_of_literal h]
  rfl

theorem reads_emptyArray {b : List Char} (hb : Blanks b) :
    Reads (.array []) ('[' :: (b ++ [']'])) := by
  intro fuel rest hfuel _
  obtain ⟨fuel, rfl⟩ := Nat.exists_eq_add_one.mpr (Nat.zero_lt_of_lt hfuel)
  rw [List.cons_append, List.append_assoc, Tree.read?, skipSpace_cons (by decide)]
  simp only [List.singleton_append, skipSpace_blanks_cons hb (show isSpace ']' = false by decide)]

theorem reads_emptyObject {b : List Char} (hb : Blanks b) :
    Reads (.object []) ('{' :: (b ++ ['}'])) := by
  intro fuel rest hfuel _
  obtain ⟨fuel, rfl⟩ := Nat.exists_eq_add_one.mpr (Nat.zero_lt_of_lt hfuel)
  rw [List.cons_append, List.append_assoc, Tree.read?, skipSpace_cons (by decide)]
  simp only [List.singleton_append, skipSpace_blanks_cons hb (show isSpace '}' = false by decide)]

theorem reads_array (h : ReadsItems ts cs) : Reads (.array ts) ('[' :: (cs ++ [']'])) := by
  intro fuel rest hfuel _
  obtain ⟨fuel, rfl⟩ := Nat.exists_eq_add_one.mpr (Nat.zero_lt_of_lt hfuel)
  rw [List.cons_append, List.append_assoc]
  refine read?_of_readItems? (h _ _ ?_)
  simp at hfuel
  omega

theorem reads_object (h : ReadsMembers ms cs) : Reads (.object ms) ('{' :: (cs ++ ['}'])) := by
  intro fuel rest hfuel _
  obtain ⟨fuel, rfl⟩ := Nat.exists_eq_add_one.mpr (Nat.zero_lt_of_lt hfuel)
  rw [List.cons_append, List.append_assoc]
  refine read?_of_readMembers? (h _ _ ?_)
  simp at hfuel
  omega

theorem readsPadded {b b' : List Char} (hb : Blanks b) (h : Reads t cs) (hb' : Blanks b') :
    ReadsPadded t (b ++ (cs ++ b')) := by
  intro fuel rest hfuel hrest
  refine ⟨b' ++ rest, ?_, skipSpace_blanks hb' rest⟩
  rw [List.append_assoc, List.append_assoc, read?_blanks hb]
  refine h fuel _ ?_ (hrest.blanks hb')
  simp at hfuel
  omega

theorem readsItems_last (h : ReadsPadded t cs) : ReadsItems [t] cs := by
  intro fuel rest hfuel
  obtain ⟨fuel, rfl⟩ := Nat.exists_eq_add_one.mpr (Nat.zero_lt_of_lt hfuel)
  obtain ⟨rest', hread, hskip⟩ := h fuel (']' :: rest) (by omega) (ends_cons (by decide) _)
  rw [skipSpace_cons (by decide)] at hskip
  exact readItems?_last hread hskip

theorem readsItems_cons (h : ReadsPadded t cs) (hs : ReadsItems ts cs') :
    ReadsItems (t :: ts) (cs ++ ',' :: cs') := by
  intro fuel rest hfuel
  simp at hfuel
  obtain ⟨fuel, rfl⟩ := Nat.exists_eq_add_one.mpr (Nat.zero_lt_of_lt hfuel)
  rw [List.append_assoc, List.cons_append]
  obtain ⟨rest', hread, hskip⟩ := h fuel (',' :: (cs' ++ ']' :: rest)) (by omega)
    (ends_cons (by decide) _)
  rw [skipSpace_cons (by decide)] at hskip
  exact readItems?_cons hread hskip (hs _ _ (by omega))

theorem readsMembers_last (hn : NameSpelled ps n) (h : ReadsPadded t cs) :
    ReadsMembers [(ps, t)] (n ++ ':' :: cs) := by
  intro fuel rest hfuel
  simp at hfuel
  obtain ⟨fuel, rfl⟩ := Nat.exists_eq_add_one.mpr (Nat.zero_lt_of_lt hfuel)
  rw [List.append_assoc, List.cons_append]
  obtain ⟨rest', hread, hskip⟩ := h fuel ('}' :: rest) (by omega) (ends_cons (by decide) _)
  rw [skipSpace_cons (by decide)] at hskip
  exact readMembers?_last hn hread hskip

theorem readsMembers_cons (hn : NameSpelled ps n) (h : ReadsPadded t cs)
    (hs : ReadsMembers ms cs') :
    ReadsMembers ((ps, t) :: ms) (n ++ ':' :: (cs ++ ',' :: cs')) := by
  intro fuel rest hfuel
  simp at hfuel
  obtain ⟨fuel, rfl⟩ := Nat.exists_eq_add_one.mpr (Nat.zero_lt_of_lt hfuel)
  rw [List.append_assoc, List.cons_append, List.append_assoc, List.cons_append]
  obtain ⟨rest', hread, hskip⟩ := h fuel (',' :: (cs' ++ '}' :: rest)) (by omega)
    (ends_cons (by decide) _)
  rw [skipSpace_cons (by decide)] at hskip
  exact readMembers?_cons hn hread hskip (hs _ _ (by omega))

end Trees

mutual

/-- **Every spelling of a value is read.** -/
theorem Tree.Spelled.reads : ∀ {t : Tree} {cs : List Char}, t.Spelled cs → Reads t cs
  | _, _, .null => reads_null
  | _, _, .yes => reads_yes
  | _, _, .no => reads_no
  | _, _, .number h => reads_number h
  | _, _, .string h => reads_string h
  | _, _, .emptyArray h => reads_emptyArray h
  | _, _, .array h => reads_array h.reads
  | _, _, .emptyObject h => reads_emptyObject h
  | _, _, .object h => reads_object h.reads

theorem Tree.Padded.reads : ∀ {t : Tree} {cs : List Char}, t.Padded cs → ReadsPadded t cs
  | _, _, .mk hb h hb' => readsPadded hb h.reads hb'

theorem Tree.SpelledItems.reads :
    ∀ {ts : List Tree} {cs : List Char}, Tree.SpelledItems ts cs → ReadsItems ts cs
  | _, _, .last h => readsItems_last h.reads
  | _, _, .cons h hs => readsItems_cons h.reads hs.reads

theorem Tree.SpelledMembers.reads :
    ∀ {ms : List (List Piece × Tree)} {cs : List Char}, Tree.SpelledMembers ms cs →
      ReadsMembers ms cs
  | _, _, .last hn h => readsMembers_last hn h.reads
  | _, _, .cons hn h hs => readsMembers_cons hn h.reads hs.reads

end

/-- **Every spelling of a whole text is read.** -/
theorem parse?_of_padded {t : Tree} {cs : List Char} (h : t.Padded cs) :
    Tree.parse? cs = some t := by
  obtain ⟨rest, hread, hskip⟩ := h.reads (cs.length + 1) [] (Nat.le_succ _) ends_nil
  rw [List.append_nil] at hread
  have hnil : skipSpace rest = [] := hskip
  rw [Tree.parse?, hread]
  simp [hnil]

end LoadRig.Json
