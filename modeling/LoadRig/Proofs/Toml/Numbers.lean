import LoadRig.Proofs.Text.Ahead
import LoadRig.Proofs.Toml.Spelling
import Mathlib.Tactic.Common
/-!
# Every number and every date is read

Numbers and dates begin alike, and a date may go on behind a blank. What is taken off the front of a
text is the whole of what is spelled there because of what may come next: nothing that can stand behind a
value continues one. Where a date is looked for first, none is found in a number, since the digits that
it begins with are followed by neither a dash nor a colon.

## Main definitions

* `LoadRig.Toml.Closes` — what may come behind a value.

## Main results

* `LoadRig.Toml.readNumber?_of_spelled` — integers and floats.
* `LoadRig.Toml.readNumber?_of_moment` — dates and times.
-/

namespace LoadRig.Toml

open LoadRig.Text

variable {cs ds t sign f e rest : List Char} {isBase p : Char → Bool} {negative : Bool} {c : Char}

/-! ### What may come next -/

/-- The characters that may come behind a value and the blanks after it. -/
def closers : List Char := ['\n', '\r', '#', ',', ']', '}']

/-- What may come behind a value: blanks, and then the end of the line, a comment, a comma, a closing
bracket, or nothing. -/
def Closes (rest : List Char) : Prop := ∃ g e, rest = g ++ e ∧ Gap g ∧ ∀ c ∈ e.head?, c ∈ closers

theorem Closes.noneAhead (h : Closes rest) (hp : (' ' :: '\t' :: closers).any p = false) :
    NoneAhead p rest := by
  obtain ⟨g, e, rfl, hg, he⟩ := h
  have hall : ∀ c ∈ ' ' :: '\t' :: closers, p c = false := fun c hc =>
    Bool.eq_false_iff.mpr (List.any_eq_false.mp hp c hc)
  intro c hc
  rcases mem_head?_append hc with hc | hc
  · rcases isGap_iff.mp (hg c (List.mem_of_mem_head? hc)) with rfl | rfl
    · exact hall _ (by simp)
    · exact hall _ (by simp)
  · exact hall c (by simp [he c hc])

/-- Behind a blank that may come behind a value comes what may come there. -/
theorem Closes.of_blank (h : Closes (' ' :: rest)) : Closes rest := by
  obtain ⟨g, e, heq, hg, he⟩ := h
  cases g with
  | nil =>
    rw [List.nil_append] at heq
    rw [← heq] at he
    exact absurd (he ' ' rfl) (by decide)
  | cons c g =>
    obtain ⟨rfl, rfl⟩ := List.cons.inj heq
    exact ⟨g, e, rfl, fun d hd => hg d (List.mem_cons_of_mem _ hd), he⟩

/-! ### Digits -/

theorem takeDigits_end (hrest : NoneAhead isBase rest) (hunder : NoneAhead (· == '_') rest) :
    takeDigits isBase rest = ([], rest) := by
  cases rest with
  | nil => rfl
  | cons c rest =>
    have hc : c ≠ '_' := beq_eq_false_iff_ne.mp (hunder c rfl)
    rw [takeDigits]
    · simp [hrest c rfl]
    · exact fun d rest hd => absurd hd hc

theorem takeDigits_cons (hbase : isBase '_' = false) (hc : isBase c = true) (cs : List Char) :
    takeDigits isBase (c :: cs) =
      (c :: (takeDigits isBase cs).1, (takeDigits isBase cs).2) := by
  have hne : c ≠ '_' := by
    rintro rfl
    rw [hbase] at hc
    cases hc
  rw [takeDigits]
  · rw [if_pos hc]
  · exact fun d rest hd => absurd hd hne

theorem takeDigits_underscore (hc : isBase c = true) (cs : List Char) :
    takeDigits isBase ('_' :: c :: cs) =
      (c :: (takeDigits isBase cs).1, (takeDigits isBase cs).2) := by
  rw [takeDigits, if_pos hc]

/-- Digits are taken off, the first of them with the underscore before it or without. -/
theorem takeDigits_of_spelled (hbase : isBase '_' = false) (h : DigitsSpelled isBase ds t)
    (hrest : NoneAhead isBase rest) (hunder : NoneAhead (· == '_') rest) :
    takeDigits isBase (t ++ rest) = (ds, rest) ∧
      takeDigits isBase ('_' :: (t ++ rest)) = (ds, rest) := by
  have hend := takeDigits_end hrest hunder
  induction h with
  | one hc =>
    rw [List.singleton_append, takeDigits_cons hbase hc, takeDigits_underscore hc, hend]
    exact ⟨rfl, rfl⟩
  | cons hc h ih =>
    rw [List.cons_append, takeDigits_cons hbase hc, takeDigits_underscore hc, ih.1]
    exact ⟨rfl, rfl⟩
  | apart hc h ih =>
    rw [List.cons_append, takeDigits_cons hbase hc, takeDigits_underscore hc, List.cons_append, ih.2]
    exact ⟨rfl, rfl⟩

theorem takeSomeDigits?_of_spelled (hbase : isBase '_' = false) (h : DigitsSpelled isBase ds t)
    (hrest : NoneAhead isBase rest) (hunder : NoneAhead (· == '_') rest) :
    takeSomeDigits? isBase (t ++ rest) = some (ds, rest) := by
  have hend := takeDigits_end hrest hunder
  cases h with
  | one hc => simp [takeSomeDigits?, hc, hend]
  | cons hc h => simp [takeSomeDigits?, hc, (takeDigits_of_spelled hbase h hrest hunder).1]
  | apart hc h => simp [takeSomeDigits?, hc, (takeDigits_of_spelled hbase h hrest hunder).2]

/-- Digits begin with the digit that they begin with. -/
theorem DigitsSpelled.exists_cons (h : DigitsSpelled isBase ds t) :
    ∃ c ds' t', ds = c :: ds' ∧ t = c :: t' ∧ isBase c = true := by
  cases h with
  | one hc => exact ⟨_, _, _, rfl, rfl, hc⟩
  | cons hc => exact ⟨_, _, _, rfl, rfl, hc⟩
  | apart hc => exact ⟨_, _, _, rfl, rfl, hc⟩

/-- What no digit passes is not next where digits are. -/
theorem DigitsSpelled.noneAhead (h : DigitsSpelled isBase ds t)
    (hp : ∀ c, isBase c = true → p c = false) (rest : List Char) : NoneAhead p (t ++ rest) := by
  obtain ⟨c, ds', t', -, rfl, hc⟩ := h.exists_cons
  exact noneAhead_cons (hp c hc)

/-- The run of digits that a number begins with ends with it, or at an underscore. -/
theorem DigitsSpelled.exists_run (h : DigitsSpelled isBase ds t) :
    ∃ run more, t = run ++ more ∧ (∀ d ∈ run, isBase d = true) ∧ (more = [] ∨ more.head? = some '_') := by
  induction h with
  | one hc => exact ⟨[_], [], rfl, by simpa using hc, .inl rfl⟩
  | cons hc h ih =>
    obtain ⟨run, more, rfl, hrun, hmore⟩ := ih
    exact ⟨_ :: run, more, rfl, List.forall_mem_cons.mpr ⟨hc, hrun⟩, hmore⟩
  | apart hc h => exact ⟨[_], _, rfl, by simpa using hc, .inr rfl⟩

/-! ### Signs, fractions and exponents -/

theorem no_sign_of_isDigit (h : c.isDigit = true) : (c == '-' || c == '+') = false := by
  by_contra hne
  rw [Bool.not_eq_false, Bool.or_eq_true, beq_iff_eq, beq_iff_eq] at hne
  rcases hne with rfl | rfl <;> cases h

theorem takeSign_of_spelled (h : SignSpelled negative sign)
    (hrest : NoneAhead (fun c => c == '-' || c == '+') rest) :
    takeSign (sign ++ rest) = (negative, rest) := by
  cases h with
  | plus | minus => rfl
  | absent =>
    cases rest with
    | nil => rfl
    | cons c rest =>
      have hc := hrest c rfl
      simp only [Bool.or_eq_false_iff, beq_eq_false_iff_ne] at hc
      rw [List.nil_append, takeSign]
      · exact fun rest heq => hc.1 (List.cons.inj heq).1
      · exact fun rest heq => hc.2 (List.cons.inj heq).1

theorem takeDecimal?_of_spelled (h : DecimalSpelled ds t) (hrest : NoneAhead Char.isDigit rest)
    (hunder : NoneAhead (· == '_') rest) : takeDecimal? (t ++ rest) = some (ds, rest) := by
  cases h with
  | zero => rfl
  | digits h hzero =>
    obtain ⟨c, ds', t', rfl, rfl, hc⟩ := h.exists_cons
    have hne : c ≠ '0' := fun heq => hzero (congrArg some heq)
    rw [takeDecimal?]
    · exact takeSomeDigits?_of_spelled rfl h hrest hunder
    · exact fun rest heq => hne (List.cons.inj heq).1

theorem takeFraction?_of_spelled {fraction : Option (List Char)} (h : FractionSpelled fraction f)
    (hrest : NoneAhead Char.isDigit rest) (hunder : NoneAhead (· == '_') rest)
    (hpoint : NoneAhead (· == '.') rest) : takeFraction? (f ++ rest) = some (fraction, rest) := by
  cases h with
  | absent =>
    rw [List.nil_append, takeFraction?]
    rintro rest' rfl
    cases hpoint '.' rfl
  | digits h =>
    rw [List.cons_append, takeFraction?, takeSomeDigits?_of_spelled rfl h hrest hunder]
    rfl

theorem takeExponent?_of_spelled {exponent : Option Int} (h : ExponentSpelled exponent e)
    (hrest : NoneAhead Char.isDigit rest) (hunder : NoneAhead (· == '_') rest)
    (hletter : NoneAhead (fun c => c == 'e' || c == 'E') rest) :
    takeExponent? (e ++ rest) = some (exponent, rest) := by
  cases h with
  | absent =>
    cases rest with
    | nil => rfl
    | cons c rest =>
      have hc : (c == 'e' || c == 'E') = false := hletter c rfl
      rw [List.nil_append, takeExponent?, hc]
      rfl
  | digits hl hsign h =>
    have hcond : ∀ {l : Char}, l = 'e' ∨ l = 'E' → (l == 'e' || l == 'E') = true := by
      rintro l (rfl | rfl) <;> rfl
    rw [List.cons_append, List.append_assoc, takeExponent?, if_pos (hcond hl),
      takeSign_of_spelled hsign (h.noneAhead (fun c hc => no_sign_of_isDigit hc) rest)]
    simp only [takeSomeDigits?_of_spelled rfl h hrest hunder]
    rfl

/-! ### Fields -/

section Fields

variable {n low high v : Nat} {mark : Char}

theorem takeField?_of_spelled (h : FieldSpelled n low high v ds) (rest : List Char) :
    takeField? n low high (ds ++ rest) = some (v, rest) := by
  obtain ⟨rfl, hdigits, rfl, hlow, hhigh⟩ := h
  have hall : ds.all Char.isDigit = true := List.all_eq_true.mpr hdigits
  rw [takeField?, List.take_left, List.drop_left]
  exact if_pos ⟨rfl, hall, hlow, hhigh⟩

/-- Where a field ends that is taken off digits there is another digit, or what is behind them. -/
theorem takeMark?_of_takeField? {r : List Char} (hn : 0 < n) (hds : ∀ d ∈ ds, d.isDigit = true)
    (hrest : NoneAhead Char.isDigit rest) (hmark : ds = [] ∨ NoneAhead (· == mark) rest)
    (hdigit : mark.isDigit = false) (h : takeField? n low high (ds ++ rest) = some (v, r)) :
    takeMark? (· == mark) r = none := by
  rw [takeField?] at h
  obtain ⟨⟨hlength, hall, -⟩, heq⟩ := Option.ite_none_right_eq_some.mp h
  obtain rfl := (Prod.mk.inj (Option.some.inj heq)).2
  rw [List.all_eq_true] at hall
  have hend : ds ≠ [] → takeMark? (· == mark) rest = none := by
    intro hne
    cases rest with
    | nil => rfl
    | cons c rest => simp [takeMark?, hmark.resolve_left hne c rfl]
  rcases List.append_eq_append_iff.mp (List.take_append_drop n (ds ++ rest)) with
    ⟨a, hds', hr⟩ | ⟨a, htake, hrest'⟩
  · -- the field ends among the digits, or with them
    rw [hr]
    cases a with
    | nil =>
      refine hend ?_
      rintro rfl
      rw [List.append_nil] at hds'
      rw [← hds'] at hlength
      exact absurd hlength (Nat.ne_of_lt hn)
    | cons d a =>
      have hd : d.isDigit = true := hds d (hds' ▸ by simp)
      have hne : d ≠ mark := by
        rintro rfl
        rw [hdigit] at hd
        cases hd
      simp [takeMark?, hne]
  · -- nor does it go on behind them
    cases a with
    | nil =>
      rw [List.append_nil] at htake
      rw [List.nil_append] at hrest'
      rw [← hrest']
      refine hend ?_
      rintro rfl
      rw [htake] at hlength
      exact absurd hlength (Nat.ne_of_lt hn)
    | cons d a =>
      have hd : d.isDigit = true := hall d (htake ▸ by simp)
      rw [hrest d (by rw [hrest']; rfl)] at hd
      cases hd

end Fields

/-! ### Dates and times -/

/-- There is no date where the digits at the front are followed by no dash. -/
theorem takeDate?_eq_none (hds : ∀ d ∈ ds, d.isDigit = true) (hrest : NoneAhead Char.isDigit rest)
    (hmark : ds = [] ∨ NoneAhead (· == '-') rest) : takeDate? (ds ++ rest) = none := by
  rw [takeDate?]
  cases h : takeField? 4 0 9999 (ds ++ rest) with
  | none => rfl
  | some r =>
    have hnone := takeMark?_of_takeField? (by decide) hds hrest hmark rfl h
    simp [hnone]

/-- There is no time where they are followed by no colon. -/
theorem takeTime?_eq_none (hds : ∀ d ∈ ds, d.isDigit = true) (hrest : NoneAhead Char.isDigit rest)
    (hmark : ds = [] ∨ NoneAhead (· == ':') rest) : takeTime? (ds ++ rest) = none := by
  rw [takeTime?]
  cases h : takeField? 2 0 23 (ds ++ rest) with
  | none => rfl
  | some r =>
    have hnone := takeMark?_of_takeField? (by decide) hds hrest hmark rfl h
    simp [hnone]

theorem takeDate?_of_spelled (h : DateSpelled ds) (rest : List Char) :
    takeDate? (ds ++ rest) = some rest := by
  cases h with
  | mk hy hm hd =>
    simp [takeDate?, takeField?_of_spelled hy, takeField?_of_spelled hm, takeField?_of_spelled hd,
      takeMark?]

theorem takeTime?_of_spelled (h : TimeSpelled t) (hrest : NoneAhead Char.isDigit rest)
    (hpoint : NoneAhead (· == '.') rest) : takeTime? (t ++ rest) = some rest := by
  cases h with
  | mk hh hm hsec hf =>
    simp only [takeTime?, List.append_assoc, List.cons_append, takeField?_of_spelled hh,
      takeField?_of_spelled hm, takeField?_of_spelled hsec, takeMark?, Option.bind_eq_bind,
      Option.bind_some, beq_self_eq_true, if_true]
    cases hf with
    | absent =>
      rw [List.nil_append]
      split
      · cases hpoint '.' rfl
      · rfl
    | digits hne hds =>
      obtain ⟨d, ds, rfl⟩ := List.exists_cons_of_ne_nil hne
      have hd := hds d List.mem_cons_self
      have hdrop := (takeWhile_append_of_noneAhead hds hrest).2
      rw [List.cons_append] at hdrop
      simp [hd, hdrop]

theorem takeOffset?_of_spelled (h : OffsetSpelled t)
    (hrest : NoneAhead (fun c => c == 'Z' || c == 'z' || c == '+' || c == '-') rest) :
    (takeOffset? (t ++ rest)).getD (t ++ rest) = rest := by
  cases h with
  | absent =>
    have hnone : takeOffset? rest = none := by
      cases rest with
      | nil => rfl
      | cons c rest =>
        have hc := hrest c rfl
        simp only [Bool.or_eq_false_iff, beq_eq_false_iff_ne] at hc
        obtain ⟨⟨⟨hZ, hz⟩, hplus⟩, hminus⟩ := hc
        rw [takeOffset?]
        · simp [takeMark?, hplus, hminus]
        · exact fun rest heq => hZ (List.cons.inj heq).1
        · exact fun rest heq => hz (List.cons.inj heq).1
    rw [List.nil_append, hnone]
    rfl
  | universal hc => rcases hc with rfl | rfl <;> rfl
  | hours hc hh hm =>
    rcases hc with rfl | rfl <;>
      simp [takeOffset?, takeMark?, takeField?_of_spelled hh, takeField?_of_spelled hm]

theorem OffsetSpelled.noneAhead (h : OffsetSpelled t) (hp : ['Z', 'z', '+', '-'].any p = false) :
    NoneAhead p t := by
  have hall : ∀ c ∈ ['Z', 'z', '+', '-'], p c = false := fun c hc =>
    Bool.eq_false_iff.mpr (List.any_eq_false.mp hp c hc)
  cases h with
  | absent => exact noneAhead_nil
  | universal hc => rcases hc with rfl | rfl <;> exact noneAhead_cons (hall _ (by simp))
  | hours hc => rcases hc with rfl | rfl <;> exact noneAhead_cons (hall _ (by simp))

/-- **Every spelling of a date or a time is read.** -/
theorem readMoment?_of_spelled (h : MomentSpelled t) (hrest : Closes rest) :
    readMoment? (t ++ rest) = some rest := by
  have hdigit : NoneAhead Char.isDigit rest := hrest.noneAhead (by decide)
  have hpoint : NoneAhead (· == '.') rest := hrest.noneAhead (by decide)
  cases h with
  | date hd =>
    have hmark : (takeMark? (fun c => c == 'T' || c == 't' || c == ' ') rest).bind takeTime? =
        none := by
      cases rest with
      | nil => rfl
      | cons c rest =>
        by_cases hc : c = ' '
        · subst hc
          have hdigit : NoneAhead Char.isDigit rest := hrest.of_blank.noneAhead (by decide)
          have htime : takeTime? ([] ++ rest) = none := takeTime?_eq_none (List.forall_mem_nil _) hdigit (.inl rfl)
          exact htime
        · have hc' : (c == 'T' || c == 't' || c == ' ') = false := by
            have hletter : NoneAhead (fun c => c == 'T' || c == 't') (c :: rest) :=
              hrest.noneAhead (by decide)
            simp [hletter c rfl, hc]
          simp [takeMark?, hc']
    rw [readMoment?, takeDate?_of_spelled hd]
    simp only [hmark]
  | time ht =>
    have hdate : takeDate? (t ++ rest) = none := by
      cases ht with
      | mk hh hm hsec hf =>
        rw [List.append_assoc]
        exact takeDate?_eq_none hh.digits (noneAhead_cons rfl) (.inr (noneAhead_cons rfl))
    rw [readMoment?, hdate]
    exact takeTime?_of_spelled ht hdigit hpoint
  | both hd hc ht ho =>
    have htime := takeTime?_of_spelled ht ((ho.noneAhead (by decide)).append hdigit)
      ((ho.noneAhead (by decide)).append hpoint)
    have hoffset := takeOffset?_of_spelled ho (hrest.noneAhead (by decide))
    rw [List.append_assoc, List.cons_append, List.append_assoc, readMoment?,
      takeDate?_of_spelled hd]
    rcases hc with rfl | rfl | rfl <;> simp [takeMark?, htime, hoffset]

/-! ### Numbers -/

/-- There is no date in a number. -/
theorem readMoment?_eq_none (hds : ∀ d ∈ ds, d.isDigit = true)
    (hrest : NoneAhead Char.isDigit rest)
    (hmark : ds = [] ∨ NoneAhead (fun c => c == '-' || c == ':') rest) :
    readMoment? (ds ++ rest) = none := by
  have hdash : ds = [] ∨ NoneAhead (· == '-') rest :=
    hmark.imp_right fun h c hc => (Bool.or_eq_false_iff.mp (h c hc)).1
  have hcolon : ds = [] ∨ NoneAhead (· == ':') rest :=
    hmark.imp_right fun h c hc => (Bool.or_eq_false_iff.mp (h c hc)).2
  rw [readMoment?, takeDate?_eq_none hds hrest hdash]
  exact takeTime?_eq_none hds hrest hcolon

theorem readMoment?_of_noneAhead (h : NoneAhead Char.isDigit cs) : readMoment? cs = none := by
  rw [← List.nil_append cs]
  exact readMoment?_eq_none (List.forall_mem_nil _) h (.inl rfl)

/-- A text that is taken for a number in decimal notation, or for one of the special floats. -/
theorem readNumber?_of_not_based (hmoment : readMoment? cs = none)
    (hbase : ∀ letter rest, cs = '0' :: letter :: rest → letter ≠ 'x' ∧ letter ≠ 'o' ∧ letter ≠ 'b') :
    readNumber? cs = (readSpecial? (takeSign cs).2).or (readDecimal? cs) := by
  rw [readNumber?, hmoment]
  · exact fun rest heq => (hbase 'x' rest heq).1 rfl
  · exact fun rest heq => (hbase 'o' rest heq).2.1 rfl
  · exact fun rest heq => (hbase 'b' rest heq).2.2 rfl

/-- The special floats are read. -/
theorem readNumber?_special (hsign : SignSpelled negative sign) {name : List Char}
    (hname : name = ['i', 'n', 'f'] ∨ name = ['n', 'a', 'n']) (rest : List Char) :
    readNumber? (sign ++ name ++ rest) = some (.float, rest) := by
  have hmoment : readMoment? (sign ++ name ++ rest) = none := by
    refine readMoment?_of_noneAhead ?_
    cases hsign <;> rcases hname with rfl | rfl <;> exact noneAhead_cons rfl
  rw [readNumber?_of_not_based hmoment]
  · cases hsign <;> rcases hname with rfl | rfl <;> rfl
  · intro letter rest' heq
    cases hsign <;> rcases hname with rfl | rfl <;> cases (List.cons.inj heq).1

/-- An integer in another base is read. -/
theorem readNumber?_based {letter : Char} {base : Nat} (hbase : Base letter base isBase)
    (hds : DigitsSpelled isBase ds t) (hhigh : baseValue base ds < signedLimit)
    (hrest : Closes rest) :
    readNumber? ('0' :: letter :: (t ++ rest)) = some (.integer (baseValue base ds), rest) := by
  have hmoment : readMoment? (['0'] ++ letter :: (t ++ rest)) = none := by
    refine readMoment?_eq_none (List.forall_mem_singleton.mpr rfl) ?_ (.inr ?_) <;> cases hbase <;>
      exact noneAhead_cons rfl
  have hnumber : ∀ {isBase : Char → Bool}, isBase '_' = false → DigitsSpelled isBase ds t →
      NoneAhead isBase rest → readBase? base isBase (t ++ rest) =
        some (.integer (baseValue base ds), rest) := by
    intro isBase hunder hds hbase
    rw [readBase?, takeSomeDigits?_of_spelled hunder hds hbase (hrest.noneAhead (by decide))]
    exact if_pos hhigh
  unfold readNumber?
  rw [show readMoment? ('0' :: letter :: (t ++ rest)) = none from hmoment]
  cases hbase with
  | hexadecimal => exact hnumber rfl hds (hrest.noneAhead (by decide))
  | octal => exact hnumber rfl hds (hrest.noneAhead (by decide))
  | binary => exact hnumber rfl hds (hrest.noneAhead (by decide))

theorem DecimalSpelled.exists_run (h : DecimalSpelled ds t) :
    ∃ run more, t = run ++ more ∧ (∀ d ∈ run, d.isDigit = true) ∧
      (more = [] ∨ more.head? = some '_') := by
  cases h with
  | zero => exact ⟨['0'], [], rfl, List.forall_mem_singleton.mpr rfl, .inl rfl⟩
  | digits h => exact h.exists_run

theorem DecimalSpelled.exists_cons (h : DecimalSpelled ds t) :
    ∃ c t', t = c :: t' ∧ c.isDigit = true ∧ (c = '0' → t' = []) := by
  cases h with
  | zero => exact ⟨'0', [], rfl, rfl, fun _ => rfl⟩
  | digits h hzero =>
    obtain ⟨c, ds', t', rfl, rfl, hc⟩ := h.exists_cons
    exact ⟨c, t', rfl, hc, fun heq => absurd (congrArg some heq) hzero⟩

/-- A number that begins with decimal digits is read in decimal notation. -/
theorem readNumber?_decimal (hsign : SignSpelled negative sign) (hds : DecimalSpelled ds t)
    (hrest : NoneAhead (fun c => c.isDigit || ['-', ':', 'x', 'o', 'b'].contains c) rest) :
    readNumber? (sign ++ (t ++ rest)) = readDecimal? (sign ++ (t ++ rest)) := by
  have hdigit : NoneAhead Char.isDigit rest := fun c hc => (Bool.or_eq_false_iff.mp (hrest c hc)).1
  have hmark : ∀ c ∈ rest.head?, c ∉ ['-', ':', 'x', 'o', 'b'] := fun c hc => by
    simpa using (Bool.or_eq_false_iff.mp (hrest c hc)).2
  obtain ⟨c, t', rfl, hc, hzero⟩ := hds.exists_cons
  have hmoment : readMoment? (sign ++ (c :: t' ++ rest)) = none := by
    cases hsign with
    | absent =>
      obtain ⟨run, more, heq, hrun, hmore⟩ := hds.exists_run
      have hnext : NoneAhead Char.isDigit (more ++ rest) := by
        refine NoneAhead.append (fun d hd => ?_) hdigit
        rcases hmore with rfl | hmore
        · cases hd
        · obtain rfl := Option.some.inj (hmore.symm.trans hd)
          rfl
      have hdash : NoneAhead (fun c => c == '-' || c == ':') (more ++ rest) := by
        refine NoneAhead.append (fun d hd => ?_) fun d hd => ?_
        · rcases hmore with rfl | hmore
          · cases hd
          · obtain rfl := Option.some.inj (hmore.symm.trans hd)
            rfl
        · have hne := hmark d hd
          simp only [List.mem_cons, not_or] at hne
          simp [hne.1, hne.2.1]
      rw [List.nil_append, heq, List.append_assoc]
      exact readMoment?_eq_none hrun hnext (.inr hdash)
    | plus | minus => exact readMoment?_of_noneAhead (noneAhead_cons rfl)
  have hfirst : c ≠ 'i' ∧ c ≠ 'n' := by
    constructor <;> rintro rfl <;> cases hc
  have hspecial : readSpecial? (takeSign (sign ++ (c :: t' ++ rest))).2 = none := by
    rw [List.cons_append, takeSign_of_spelled hsign (noneAhead_cons (no_sign_of_isDigit hc)),
      readSpecial?]
    · exact fun rest heq => hfirst.1 (List.cons.inj heq).1
    · exact fun rest heq => hfirst.2 (List.cons.inj heq).1
  rw [readNumber?_of_not_based hmoment, hspecial]
  · rfl
  · intro letter rest' heq
    cases hsign with
    | absent =>
      obtain ⟨hfirst, hletter⟩ := List.cons.inj heq
      rw [hzero hfirst] at hletter
      have hne := hmark letter (by rw [show rest = letter :: rest' from hletter]; rfl)
      simp only [List.mem_cons, not_or] at hne
      exact ⟨hne.2.2.1, hne.2.2.2.1, hne.2.2.2.2.1⟩
    | plus | minus => cases (List.cons.inj heq).1

theorem FractionSpelled.noneAhead {fraction : Option (List Char)} (h : FractionSpelled fraction f)
    (hp : p '.' = false) : NoneAhead p f := by
  cases h with
  | absent => exact noneAhead_nil
  | digits => exact noneAhead_cons hp

theorem ExponentSpelled.noneAhead {exponent : Option Int} (h : ExponentSpelled exponent e)
    (hp : p 'e' = false) (hp' : p 'E' = false) : NoneAhead p e := by
  cases h with
  | absent => exact noneAhead_nil
  | digits hl =>
    rcases hl with rfl | rfl
    · exact noneAhead_cons hp
    · exact noneAhead_cons hp'

/-- What is taken off a number in decimal notation. -/
theorem readDecimal?_of_spelled {fraction : Option (List Char)} {exponent : Option Int}
    (hsign : SignSpelled negative sign) (hds : DecimalSpelled ds t)
    (hfraction : FractionSpelled fraction f) (hexponent : ExponentSpelled exponent e)
    (hrest : Closes rest) :
    readDecimal? (sign ++ (t ++ (f ++ (e ++ rest)))) =
      if fraction.isSome || exponent.isSome then
        if !negative && isTooLarge (digitsValue (ds ++ fraction.getD []))
          (exponent.getD 0 - (fraction.getD []).length) then none else some (.float, rest)
      else
        if -(signedLimit : Int) ≤ signed negative (digitsValue ds) &&
          signed negative (digitsValue ds) < signedLimit then
          some (.integer (signed negative (digitsValue ds)), rest) else none := by
  have hbehind : ∀ {p : Char → Bool}, p 'e' = false → p 'E' = false →
      (' ' :: '\t' :: closers).any p = false → NoneAhead p (e ++ rest) := fun he hE hp =>
    (hexponent.noneAhead he hE).append (hrest.noneAhead hp)
  have hafter : ∀ {p : Char → Bool}, p '.' = false → p 'e' = false → p 'E' = false →
      (' ' :: '\t' :: closers).any p = false → NoneAhead p (f ++ (e ++ rest)) :=
    fun hpoint he hE hp => (hfraction.noneAhead hpoint).append (hbehind he hE hp)
  obtain ⟨c, t', rfl, hc, -⟩ := hds.exists_cons
  have htakeSign : takeSign (sign ++ (c :: t' ++ (f ++ (e ++ rest)))) =
      (negative, c :: t' ++ (f ++ (e ++ rest))) :=
    takeSign_of_spelled hsign (noneAhead_cons (no_sign_of_isDigit hc))
  have htakeDecimal := takeDecimal?_of_spelled hds (hafter rfl rfl rfl (by decide))
    (hafter rfl rfl rfl (by decide))
  have htakeFraction := takeFraction?_of_spelled hfraction (hbehind rfl rfl (by decide))
    (hbehind rfl rfl (by decide)) (hbehind rfl rfl (by decide))
  have htakeExponent := takeExponent?_of_spelled hexponent (hrest.noneAhead (by decide))
    (hrest.noneAhead (by decide)) (hrest.noneAhead (by decide))
  simp only [readDecimal?, htakeSign, htakeDecimal, htakeFraction, htakeExponent,
    Option.bind_eq_bind, Option.bind_some]
  rfl

/-- **Every spelling of a number is read**, as long as it keeps within the bounds. -/
theorem readNumber?_of_spelled {v : Item} (h : NumberSpelled true v t) (hrest : Closes rest) :
    readNumber? (t ++ rest) = some (v, rest) := by
  have hplain : NoneAhead (fun c => c.isDigit || ['-', ':', 'x', 'o', 'b'].contains c) rest :=
    hrest.noneAhead (by decide)
  cases h with
  | decimal hsign hds hlow hhigh =>
    have hread := readDecimal?_of_spelled hsign hds .absent .absent hrest
    simp only [List.nil_append] at hread
    rw [List.append_assoc, readNumber?_decimal hsign hds hplain, hread]
    simp [hlow, hhigh]
  | based hbase hds hhigh => exact readNumber?_based hbase hds hhigh hrest
  | float hsign hds hfraction hexponent hfloat hbound =>
    have hafter := (hfraction.noneAhead rfl).append ((hexponent.noneAhead rfl rfl).append hplain)
    simp only [List.append_assoc]
    rw [readNumber?_decimal hsign hds hafter,
      readDecimal?_of_spelled hsign hds hfraction hexponent hrest, if_pos (by simpa using hfloat),
      if_neg]
    intro hlarge
    obtain ⟨hpositive, hlarge⟩ := Bool.and_eq_true_iff.mp hlarge
    exact hbound rfl (by simpa using hpositive) (isTooLarge_iff.mp hlarge)
  | infinite hsign => exact readNumber?_special hsign (.inl rfl) rest
  | undefined hsign => exact readNumber?_special hsign (.inr rfl) rest

/-- **Every spelling of a date or a time is read** where a number may stand as well. -/
theorem readNumber?_of_moment (h : MomentSpelled t) (hrest : Closes rest) :
    readNumber? (t ++ rest) = some (.moment, rest) := by
  unfold readNumber?
  rw [readMoment?_of_spelled h hrest]

end LoadRig.Toml
