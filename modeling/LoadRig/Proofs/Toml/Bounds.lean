import LoadRig.Proofs.Toml.Reading
/-!
# What is beyond the bounds

Three bounds are no part of the format: how deep values may be nested, how many parts a key may have, and
how large a float may be. A text that keeps to the format but not to one of the bounds is refused, whatever
else it holds.

## Main results

* `LoadRig.Toml.readValue?_nested` — too many brackets.
* `LoadRig.Toml.readKey?_long` — too many parts of a key.
* `LoadRig.Toml.readNumber?_large` — a float that is too large.
* `LoadRig.Toml.parse?_eq_none_of_value`, `LoadRig.Toml.parse?_eq_none_of_key` — what becomes of the text.
-/

namespace LoadRig.Toml

open LoadRig.Text

variable {k cs rest sign ds t f e : List Char} {path : Path} {fuel d n : Nat}

/-! ### Brackets -/

/-- An array around an array, and so on. -/
def nested : Nat → Item
  | 0 => .array []
  | n + 1 => .array [nested n]

/-- As many brackets close as open. -/
def brackets (n : Nat) : List Char := List.replicate n '[' ++ List.replicate n ']'

theorem spelled_nested (n d : Nat) : Spelled false d (.value (nested n)) (brackets (n + 1)) := by
  have hnone : Filler [] := .gap gap_nil
  have hfree : ∀ {d : Nat}, false = true → d + 1 < tooDeep := fun h => absurd h Bool.false_ne_true
  induction n generalizing d with
  | zero => exact .array hfree (.noItems hnone)
  | succ n ih =>
    have htext : brackets (n + 2) = '[' :: ([] ++ (brackets (n + 1) ++ ([] ++ [']']))) := by
      rw [brackets, List.replicate_succ, List.replicate_succ' (n := n + 1)]
      simp [brackets]
    rw [htext]
    exact .array hfree (.lastItem hnone (ih (d + 1)) hnone)

/-- Too many brackets are refused, whatever is inside them. -/
theorem readValue?_nested (hdeep : tooDeep ≤ d + (n + 1)) (rest : List Char) :
    readValue? fuel d (List.replicate (n + 1) '[' ++ rest) = none := by
  induction n generalizing fuel d with
  | zero =>
    cases fuel with
    | zero => rfl
    | succ fuel => rw [List.replicate_one, List.singleton_append, readValue?, if_pos hdeep]
  | succ n ih =>
    have hinner : ∀ fuel, readItems? fuel (d + 1) (List.replicate (n + 1) '[' ++ rest) = none := by
      intro fuel
      cases fuel with
      | zero => rfl
      | succ fuel =>
        have hvalue : readValue? fuel (d + 1) (List.replicate (n + 1) '[' ++ rest) = none :=
          ih (by omega)
        rw [List.replicate_succ, List.cons_append] at hvalue ⊢
        have hfiller := skipFiller_length (.gap gap_nil : Filler [])
          (noneAhead_cons rfl : NoneAhead isFiller ('[' :: (List.replicate n '[' ++ rest)))
        rw [List.nil_append] at hfiller
        rw [readItems?, hfiller]
        simp [hvalue]
    cases fuel with
    | zero => rfl
    | succ fuel =>
      rw [List.replicate_succ, List.cons_append, readValue?, hinner]
      split <;> rfl

/-! ### Parts of a key -/

/-- The same part again and again. -/
theorem partsOfKey_replicate {p g : List Char} (hp : PartSpelled p p) (hg : Gap g) (n : Nat) :
    PartsOfKey (List.replicate (n + 1) p) ((List.replicate n (p ++ ['.'])).flatten ++ (p ++ g)) := by
  induction n with
  | zero => exact .last gap_nil hp hg
  | succ n ih =>
    have htext : (List.replicate (n + 1) (p ++ ['.'])).flatten ++ (p ++ g) =
        [] ++ (p ++ ([] ++ '.' :: ((List.replicate n (p ++ ['.'])).flatten ++ (p ++ g)))) := by
      simp [List.replicate_succ]
    rw [htext, List.replicate_succ]
    exact .cons gap_nil hp gap_nil ih

theorem readParts?_long (h : PartsOfKey path k) (hlong : fuel < path.length) (rest : List Char) :
    readParts? fuel (k ++ rest) = none := by
  induction h generalizing fuel with
  | last hg h hg' =>
    obtain rfl : fuel = 0 := by simpa using hlong
    rfl
  | cons hg h hg' hs ih =>
    cases fuel with
    | zero => rfl
    | succ fuel =>
      simp only [List.append_assoc, List.cons_append]
      rw [readParts?_cons hg h hg', ih (by simpa using hlong)]
      rfl

/-- Too many parts are refused. -/
theorem readKey?_long (h : PartsOfKey path k) (hlong : tooDeep ≤ path.length) (rest : List Char) :
    readKey? (k ++ rest) = none :=
  readParts?_long h (lt_of_lt_of_le (by decide) hlong) rest

/-! ### Floats -/

/-- A float that is too large is refused, unless it is negative. -/
theorem readNumber?_large {fraction : Option (List Char)} {exponent : Option Int}
    (hsign : SignSpelled false sign) (hds : DecimalSpelled ds t)
    (hfraction : FractionSpelled fraction f) (hexponent : ExponentSpelled exponent e)
    (hfloat : fraction.isSome ∨ exponent.isSome)
    (hlarge : Decimal.Overflows (digitsValue (ds ++ fraction.getD []))
      (exponent.getD 0 - (fraction.getD []).length)) (hrest : Closes rest) :
    readNumber? (sign ++ (t ++ (f ++ (e ++ rest)))) = none := by
  have hplain : NoneAhead (fun c => c.isDigit || ['-', ':', 'x', 'o', 'b'].contains c) rest :=
    hrest.noneAhead (by decide)
  have hafter := (hfraction.noneAhead rfl).append ((hexponent.noneAhead rfl rfl).append hplain)
  rw [readNumber?_decimal hsign hds hafter,
    readDecimal?_of_spelled hsign hds hfraction hexponent hrest, if_pos (by simpa using hfloat),
    if_pos (by simpa using isTooLarge_iff.mpr hlarge)]

/-! ### Texts -/

/-- A text is refused if its first line begins with a key and is refused. -/
theorem parse?_eq_none {bounded : Bool} (hk : KeySpelled bounded path k)
    (hpair : ∀ p, readPair? p (k ++ cs) = none) : parse? (k ++ cs) = none := by
  obtain ⟨c, cs', hskip, hc⟩ := hk.exists_skipGap cs
  have hne : k ++ cs ≠ [] := by
    intro hnil
    rw [hnil] at hskip
    cases hskip
  rw [parse?]
  · rw [readLines?_of_ne_nil hne, readLine?_key hk, hpair]
    rfl
  · intro rest hmark
    rw [hmark] at hskip
    obtain rfl : '\ufeff' = c := (List.cons.inj hskip).1
    exact absurd rfl (beginsKey_spec hc).2.2.2.2.2.2

/-- So it is if its first value is refused. -/
theorem parse?_eq_none_of_value (hk : KeySpelled true path k)
    (hvalue : ∀ fuel, readValue? fuel 0 (skipGap cs) = none) : parse? (k ++ '=' :: cs) = none := by
  refine parse?_eq_none hk fun p => ?_
  rw [readPair?, readKey?_of_spelled hk (.inl rfl)]
  simp only [Option.bind_eq_bind, Option.bind_some, hvalue]
  rfl

/-- And if its first key has too many parts. -/
theorem parse?_eq_none_of_key (hk : PartsOfKey path k) (hlong : tooDeep ≤ path.length)
    (cs : List Char) : parse? (k ++ cs) = none := by
  have hkey : KeySpelled false path k := ⟨hk, fun h => absurd h Bool.false_ne_true⟩
  refine parse?_eq_none hkey fun p => ?_
  rw [readPair?, readKey?_long hk hlong]
  rfl

end LoadRig.Toml
