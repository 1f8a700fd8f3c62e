import LoadRig.Proofs.Json.Spelling
/-!
# The text of a literal

A text is a sequence of characters and a literal a sequence of code units: an escape in digits names
one unit of UTF-16, and a character beyond the first plane takes two of them, whether it is written as
it is or as two escapes. What a literal means is settled by its code units alone, however they are
spelled, and it is a text exactly if the units are those of characters.

## Main definitions

* `LoadRig.Json.codeUnits` — the code units of a character.
* `LoadRig.Json.units` — the code units of a literal.
* `LoadRig.Json.ofUnits?` — the characters with given code units.

## Main results

* `LoadRig.Json.decodePieces?_eq_ofUnits?` — the reader looks at nothing but the code units.
* `LoadRig.Json.Literal.decodePieces?_eq_some_iff` — which text a literal is read as.
-/

namespace LoadRig.Json

open LoadRig.Text

/-! ### Code units -/

/-- The code units of a character in UTF-16: its number, or a surrogate pair. -/
def codeUnits (c : Char) : List Nat :=
  if c.toNat < 0x10000 then [c.toNat]
  else [0xD800 + (c.toNat - 0x10000) / 0x400, 0xDC00 + (c.toNat - 0x10000) % 0x400]

/-- The code units of one item of a literal. -/
def Piece.units : Piece → List Nat
  | .char c => codeUnits c
  | .unit u => [u]

/-- The code units of a literal. -/
def units (ps : List Piece) : List Nat := ps.flatMap Piece.units

@[simp] theorem units_nil : units [] = [] := rfl

@[simp] theorem units_char (c : Char) (ps : List Piece) :
    units (.char c :: ps) = codeUnits c ++ units ps := rfl

@[simp] theorem units_unit (u : Nat) (ps : List Piece) : units (.unit u :: ps) = u :: units ps := rfl

/-- The characters with given code units. A surrogate stands for nothing on its own. -/
def ofUnits? : List Nat → Option (List Char)
  | [] => some []
  | u :: us =>
    if isHigh u then
      match us with
      | v :: us' => if isLow v then (ofUnits? us').map (pairChar u v :: ·) else none
      | [] => none
    else if isLow u then none
    else (ofUnits? us).map (Char.ofNat u :: ·)

theorem ofUnits?_single {u : Nat} (hh : isHigh u = false) (hl : isLow u = false) (us : List Nat) :
    ofUnits? (u :: us) = (ofUnits? us).map (Char.ofNat u :: ·) := by
  rw [ofUnits?.eq_def]
  simp only [hh, hl, Bool.false_eq_true, if_false]

theorem ofUnits?_pair {u v : Nat} (hu : isHigh u = true) (hv : isLow v = true) (us : List Nat) :
    ofUnits? (u :: v :: us) = (ofUnits? us).map (pairChar u v :: ·) := by
  rw [ofUnits?, if_pos hu, if_pos hv]

theorem ofUnits?_lone {u : Nat} {us : List Nat} (hu : isHigh u = true)
    (hus : ∀ v ∈ us.head?, isLow v = false) : ofUnits? (u :: us) = none := by
  rw [ofUnits?.eq_def]
  simp only [hu, if_true]
  cases us with
  | nil => rfl
  | cons v us => simp [hus v rfl]

/-! ### The code units of characters -/

theorem notSurrogate (c : Char) : c.toNat < 0xD800 ∨ (0xDFFF < c.toNat ∧ c.toNat < 0x110000) :=
  c.valid

theorem codeUnits_lt (c : Char) : ∀ u ∈ codeUnits c, u < 0x10000 := by
  have hc := notSurrogate c
  intro u hu
  rw [codeUnits] at hu
  split at hu
  · next hsmall => rwa [List.mem_singleton.mp hu]
  · simp only [List.mem_cons, List.not_mem_nil, or_false] at hu
    omega

/-- **The code units of a character are read as that character.** -/
theorem ofUnits?_codeUnits (c : Char) (us : List Nat) :
    ofUnits? (codeUnits c ++ us) = (ofUnits? us).map (c :: ·) := by
  have hc := notSurrogate c
  rw [codeUnits]
  split
  · next hsmall =>
    have hh : isHigh c.toNat = false := by simp [isHigh]; omega
    have hl : isLow c.toNat = false := by simp [isLow]; omega
    rw [List.singleton_append, ofUnits?_single hh hl, Char.ofNat_toNat]
  · next hbig =>
    have hh : isHigh (0xD800 + (c.toNat - 0x10000) / 0x400) = true := by simp [isHigh]; omega
    have hl : isLow (0xDC00 + (c.toNat - 0x10000) % 0x400) = true := by simp [isLow]; omega
    have hpair : pairChar (0xD800 + (c.toNat - 0x10000) / 0x400)
        (0xDC00 + (c.toNat - 0x10000) % 0x400) = c := by
      rw [pairChar, show 0x10000 + (0xD800 + (c.toNat - 0x10000) / 0x400 - 0xD800) * 0x400
        + (0xDC00 + (c.toNat - 0x10000) % 0x400 - 0xDC00) = c.toNat by omega, Char.ofNat_toNat]
    rw [List.cons_append, List.singleton_append, ofUnits?_pair hh hl, hpair]

theorem ofUnits?_flatMap_codeUnits (cs : List Char) : ofUnits? (cs.flatMap codeUnits) = some cs := by
  induction cs with
  | nil => rfl
  | cons c cs ih => rw [List.flatMap_cons, ofUnits?_codeUnits, ih]; rfl

/-- No character begins with the second half of a pair. -/
theorem isLow_head?_codeUnits (c : Char) (us : List Nat) :
    ∀ v ∈ (codeUnits c ++ us).head?, isLow v = false := by
  have hc := notSurrogate c
  intro v hv
  rw [codeUnits] at hv
  split at hv
  · obtain rfl := Option.some.inj hv
    simp [isLow]
    omega
  · obtain rfl := Option.some.inj hv
    simp [isLow]
    omega

theorem toNat_ofNat {n : Nat} (h : n.isValidChar) : (Char.ofNat n).toNat = n := by
  rw [Char.ofNat, dif_pos h]
  rfl

theorem codeUnits_ofNat {u : Nat} (hu : u < 0x10000) (hh : isHigh u = false) (hl : isLow u = false) :
    codeUnits (Char.ofNat u) = [u] := by
  have hvalid : u.isValidChar := by
    simp [isHigh, isLow, Nat.isValidChar] at *
    omega
  rw [codeUnits, toNat_ofNat hvalid, if_pos hu]

theorem codeUnits_pairChar {u v : Nat} (hu : isHigh u = true) (hv : isLow v = true) :
    codeUnits (pairChar u v) = [u, v] := by
  simp only [isHigh, isLow, Bool.and_eq_true, decide_eq_true_eq] at hu hv
  have hvalid : (0x10000 + (u - 0xD800) * 0x400 + (v - 0xDC00)).isValidChar := by
    simp [Nat.isValidChar]
    omega
  have hnat : (pairChar u v).toNat = 0x10000 + (u - 0xD800) * 0x400 + (v - 0xDC00) :=
    toNat_ofNat hvalid
  have hhigh : 0xD800 + ((pairChar u v).toNat - 0x10000) / 0x400 = u := by omega
  have hlow : 0xDC00 + ((pairChar u v).toNat - 0x10000) % 0x400 = v := by omega
  rw [codeUnits, if_neg (by omega), hhigh, hlow]

/-- What code units are read as has these code units. -/
theorem flatMap_codeUnits_of_ofUnits? {us : List Nat} {cs : List Char} (hus : ∀ u ∈ us, u < 0x10000)
    (h : ofUnits? us = some cs) : cs.flatMap codeUnits = us := by
  induction us using ofUnits?.induct generalizing cs with
  | case1 => rw [← Option.some.inj h, List.flatMap_nil]
  | case2 u hu v us hv ih =>
    rw [ofUnits?_pair hu hv] at h
    obtain ⟨cs', hcs', rfl⟩ := Option.map_eq_some_iff.mp h
    rw [List.flatMap_cons, codeUnits_pairChar hu hv,
      ih (fun w hw => hus w (by simp [hw])) hcs', List.cons_append, List.singleton_append]
  | case3 u hu v us hv =>
    rw [ofUnits?_lone hu (by simpa using hv)] at h
    cases h
  | case4 u hu =>
    rw [ofUnits?_lone hu (by simp)] at h
    cases h
  | case5 u us hh hl =>
    rw [ofUnits?.eq_def] at h
    simp [hh, hl] at h
  | case6 u us hh hl ih =>
    simp only [Bool.not_eq_true] at hh hl
    rw [ofUnits?_single hh hl] at h
    obtain ⟨cs', hcs', rfl⟩ := Option.map_eq_some_iff.mp h
    rw [List.flatMap_cons, codeUnits_ofNat (hus u (by simp)) hh hl,
      ih (fun w hw => hus w (by simp [hw])) hcs', List.singleton_append]

/-! ### Literals -/

/-- **The reader looks at nothing but the code units of a literal.** -/
theorem decodePieces?_eq_ofUnits? (ps : List Piece) : decodePieces? ps = ofUnits? (units ps) := by
  induction ps using decodePieces?.induct with
  | case1 => rfl
  | case2 c ps ih => rw [decodePieces?, ih, units_char, ofUnits?_codeUnits]
  | case3 u hu v ps hv ih =>
    rw [decodePieces?, if_pos hu, if_pos hv, ih, units_unit, units_unit, ofUnits?_pair hu hv]
  | case4 u hu v ps hv =>
    rw [decodePieces?, if_pos hu, if_neg hv, units_unit, units_unit,
      ofUnits?_lone hu (by simpa using hv)]
  | case5 u ps hu hps =>
    have hlone : ∀ v ∈ (units ps).head?, isLow v = false := by
      match ps, hps with
      | [], _ => simp
      | .unit v :: ps, hps => exact (hps v ps rfl).elim
      | .char c :: ps, _ => exact isLow_head?_codeUnits c (units ps)
    rw [units_unit, ofUnits?_lone hu hlone, decodePieces?.eq_def]
    simp only [hu, if_true]
  | case6 u ps hh hl =>
    rw [units_unit, ofUnits?.eq_def, decodePieces?.eq_def]
    simp only [hh, hl, Bool.false_eq_true, if_false, if_true]
  | case7 u ps hh hl ih =>
    simp only [Bool.not_eq_true] at hh hl
    rw [units_unit, ofUnits?_single hh hl, ← ih, decodePieces?.eq_def]
    simp only [hh, hl, Bool.false_eq_true, if_false]

theorem decodePieces?_of_units {ps : List Piece} {cs : List Char}
    (h : units ps = cs.flatMap codeUnits) : decodePieces? ps = some cs := by
  rw [decodePieces?_eq_ofUnits?, h, ofUnits?_flatMap_codeUnits]

theorem hexValue?_lt {c : Char} {n : Nat} (h : hexValue? c = some n) : n < 16 := by
  rw [hexValue?] at h
  split at h
  · next hc =>
    have hrange : 48 ≤ c.toNat ∧ c.toNat ≤ 57 := Char.isDigit_iff_toNat.mp hc
    have := Option.some.inj h
    omega
  · split at h
    · next hc =>
      simp only [Char.reduceToNat, Bool.and_eq_true, decide_eq_true_eq] at hc
      have := Option.some.inj h
      omega
    · split at h
      · next hc =>
        simp only [Char.reduceToNat, Bool.and_eq_true, decide_eq_true_eq] at hc
        have := Option.some.inj h
        omega
      · cases h

theorem unit?_lt {a b c d : Char} {u : Nat} (h : unit? a b c d = some u) : u < 0x10000 := by
  obtain ⟨a', ha, h⟩ := Option.bind_eq_some_iff.mp h
  obtain ⟨b', hb, h⟩ := Option.bind_eq_some_iff.mp h
  obtain ⟨c', hc, h⟩ := Option.bind_eq_some_iff.mp h
  obtain ⟨d', hd, h⟩ := Option.bind_eq_some_iff.mp h
  have hvalue : ((a' * 16 + b') * 16 + c') * 16 + d' = u := Option.some.inj h
  have := hexValue?_lt ha
  have := hexValue?_lt hb
  have := hexValue?_lt hc
  have := hexValue?_lt hd
  omega

theorem Literal.units_lt {ps : List Piece} {cs : List Char} (h : Literal ps cs) :
    ∀ u ∈ units ps, u < 0x10000 := by
  induction h with
  | close => simp
  | piece hp _ ih =>
    intro u hu
    rcases List.mem_append.mp hu with hu | hu
    · cases hp with
      | plain => exact codeUnits_lt _ u hu
      | short => exact codeUnits_lt _ u hu
      | unit h =>
        obtain rfl := List.mem_singleton.mp hu
        exact unit?_lt h
    · exact ih u hu

/-- **Which text a literal is read as**: the one with its code units. -/
theorem Literal.decodePieces?_eq_some_iff {ps : List Piece} {cs text : List Char}
    (h : Literal ps cs) : decodePieces? ps = some text ↔ units ps = text.flatMap codeUnits := by
  refine ⟨fun hread => ?_, decodePieces?_of_units⟩
  rw [decodePieces?_eq_ofUnits?] at hread
  exact (flatMap_codeUnits_of_ofUnits? h.units_lt hread).symm

end LoadRig.Json
