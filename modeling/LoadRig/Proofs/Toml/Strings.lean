import LoadRig.Proofs.Text.Ahead
import LoadRig.Proofs.Toml.Spelling
import Mathlib.Tactic.Common
/-!
# Every string is read

Whatever way a string is spelled, it is read back as itself, and the reader stops right behind it. A
string between three quotes ends at the last three of them that stand together, so this depends on what
comes next: it may not be one more quote.

## Main results

* `LoadRig.Toml.readBasic?_of_spelled`, `LoadRig.Toml.readLiteral?_of_text` — strings on one line.
* `LoadRig.Toml.readLongBasic?_of_spelled`, `LoadRig.Toml.readLongLiteral?_of_spelled` — the others.
* `LoadRig.Toml.readString?_of_spelled` — all four sorts.
-/

namespace LoadRig.Toml

open LoadRig.Text

variable {c : Char} {e s t g n b rest : List Char} {fuel : Nat}

/-! ### Escapes -/

/-- The number of hexadecimal digits. -/
theorem foldlM_hexValue? {ds : List Char} (h : ∀ d ∈ ds, isHex d = true) (n : Nat) :
    ds.foldlM (fun n c => (hexValue? c).map (16 * n + ·)) n =
      some (ds.foldl (fun n c => 16 * n + (hexValue? c).getD 0) n) := by
  induction ds generalizing n with
  | nil => rfl
  | cons d ds ih =>
    obtain ⟨hd, hds⟩ := List.forall_mem_cons.mp h
    obtain ⟨v, hv⟩ := Option.isSome_iff_exists.mp hd
    simp [hv, ih hds]

theorem scalar?_eq {ds : List Char} (h : ∀ d ∈ ds, isHex d = true)
    (hvalid : (baseValue 16 ds).isValidChar) :
    scalar? ds = some (Char.ofNat (baseValue 16 ds)) := by
  rw [scalar?, foldlM_hexValue? h]
  have hrange : (decide (baseValue 16 ds < 0xD800) ||
      (decide (0xDFFF < baseValue 16 ds) && decide (baseValue 16 ds ≤ 0x10FFFF))) = true := by
    rcases hvalid with h | ⟨hlow, hhigh⟩
    · simp [h]
    · simp [hlow, Nat.le_of_lt_succ hhigh]
  exact if_pos hrange

theorem exists_of_length_four {ds : List Char} (h : ds.length = 4) :
    ∃ a b c d, ds = [a, b, c, d] := by
  match ds, h with
  | [a, b, c, d], _ => exact ⟨a, b, c, d, rfl⟩

theorem exists_of_length_eight {ds : List Char} (h : ds.length = 8) :
    ∃ a b c d e f g i, ds = [a, b, c, d, e, f, g, i] := by
  match ds, h with
  | [a, b, c, d, e, f, g, i], _ => exact ⟨a, b, c, d, e, f, g, i, rfl⟩

/-- Puts a character before what the rest of a string was read as. -/
def before (c : Char) (r : Option (List Char × List Char)) : Option (List Char × List Char) :=
  r.map fun (s, rest) => (c :: s, rest)

theorem readBasic?_escape (h : EscapeSpelled c e) (rest : List Char) :
    readBasic? ('\\' :: (e ++ rest)) = before c (readBasic? rest) := by
  cases h with
  | short h =>
    simp only [shortEscapes, List.mem_cons, Prod.mk.injEq, List.not_mem_nil, or_false] at h
    rcases h with ⟨rfl, rfl⟩ | ⟨rfl, rfl⟩ | ⟨rfl, rfl⟩ | ⟨rfl, rfl⟩ | ⟨rfl, rfl⟩ | ⟨rfl, rfl⟩ |
      ⟨rfl, rfl⟩ <;> simp [readBasic?, shortEscape?, before] <;> cases readBasic? rest <;> rfl
  | four hlength hds hvalid =>
    obtain ⟨a, b, c, d, rfl⟩ := exists_of_length_four hlength
    simp only [List.cons_append, List.nil_append, readBasic?, scalar?_eq hds hvalid]
    cases readBasic? rest <;> rfl
  | eight hlength hds hvalid =>
    obtain ⟨a, b, c, d, e, f, g, i, rfl⟩ := exists_of_length_eight hlength
    simp only [List.cons_append, List.nil_append, readBasic?, scalar?_eq hds hvalid]
    cases readBasic? rest <;> rfl

theorem readBasic?_plain (hc : isText c = true) (hquote : c ≠ '"') (hback : c ≠ '\\')
    (rest : List Char) : readBasic? (c :: rest) = before c (readBasic? rest) := by
  rw [readBasic?]
  · rw [hc, bne_iff_ne.mpr hback]
    cases readBasic? rest <;> rfl
  · exact hquote
  all_goals
    intros
    simp_all

/-- **A string in double quotes is read.** -/
theorem readBasic?_of_spelled (h : BasicSpelled s t) (rest : List Char) :
    readBasic? (t ++ '"' :: rest) = some (s, rest) := by
  induction h with
  | nil => rfl
  | plain hc hquote hback _ ih =>
    rw [List.cons_append, readBasic?_plain hc hquote hback, ih]
    rfl
  | escape he _ ih =>
    rw [List.cons_append, List.append_assoc, readBasic?_escape he, ih]
    rfl

/-- **A string in single quotes is read.** -/
theorem readLiteral?_of_text (h : LiteralText s) (rest : List Char) :
    readLiteral? (s ++ '\'' :: rest) = some (s, rest) := by
  induction s with
  | nil => rfl
  | cons c s ih =>
    obtain ⟨⟨hc, hquote⟩, hs⟩ := List.forall_mem_cons.mp h
    rw [List.cons_append, readLiteral?]
    · simp [hc, ih hs]
    · exact hquote

/-! ### Line ends -/

theorem takeNewline?_newline (hn : Newline n) (rest : List Char) :
    takeNewline? (n ++ rest) = some rest := by
  cases hn <;> rfl

theorem Newline.length_pos (hn : Newline n) : 1 ≤ n.length := by
  cases hn <;> simp

/-- A text of more than one character that does not begin with a line end does not begin with one
before another text either. -/
theorem takeNewline?_append (hlength : 2 ≤ t.length) (h : NoNewline t) (rest : List Char) :
    takeNewline? (t ++ rest) = none := by
  match t, hlength with
  | a :: b :: t, _ =>
    unfold takeNewline?
    split
    · next heq =>
      obtain ⟨rfl, -⟩ := List.cons.inj heq
      exact absurd rfl (h ['\n'] (b :: t) .feed)
    · next heq =>
      obtain ⟨rfl, hfeed⟩ := List.cons.inj heq
      obtain ⟨rfl, -⟩ := List.cons.inj hfeed
      exact absurd rfl (h ['\r', '\n'] t .both)
    · rfl

theorem dropFirstLine_eq (hlength : 2 ≤ t.length) (h : FirstLine n t) (rest : List Char) :
    dropFirstLine (n ++ t ++ rest) = t ++ rest := by
  cases h with
  | newline hn => rw [dropFirstLine, List.append_assoc, takeNewline?_newline hn]; rfl
  | absent h => rw [dropFirstLine, List.nil_append, takeNewline?_append hlength h]; rfl

theorem skipLines_newline (hn : Newline n) (rest : List Char) :
    skipLines (n ++ rest) = skipLines rest := by
  cases hn <;> simp [skipLines]

theorem skipLines_blanks (h : Blanks b) (rest : List Char) :
    skipLines (b ++ rest) = skipLines rest := by
  induction h with
  | nil => rfl
  | gap hc h ih =>
    rcases isGap_iff.mp hc with rfl | rfl
    · exact ih
    · exact ih
  | newline hn h ih => rw [List.append_assoc, skipLines_newline hn, ih]

theorem skipLines_append (hlength : 2 ≤ t.length) (hgap : ∀ c ∈ t.head?, isGap c = false)
    (h : NoNewline t) (rest : List Char) : skipLines (t ++ rest) = t ++ rest := by
  match t, hlength with
  | a :: b :: t, _ =>
    unfold skipLines
    split
    · next heq =>
      obtain ⟨rfl, -⟩ := List.cons.inj heq
      exact absurd rfl (h ['\n'] (b :: t) .feed)
    · next heq =>
      obtain ⟨rfl, hfeed⟩ := List.cons.inj heq
      obtain ⟨rfl, -⟩ := List.cons.inj hfeed
      exact absurd rfl (h ['\r', '\n'] t .both)
    · next heq =>
      obtain ⟨rfl, rfl⟩ := List.cons.inj heq
      simp [hgap a rfl]
    · next heq => cases heq

/-! ### Closing quotes -/

variable {quote : Char}

/-- Fewer than three quotes do not close a string. -/
theorem takeClosing?_of_not_prefix (h : ¬ [quote, quote, quote] <+: s) :
    takeClosing? quote s = none := by
  rw [takeClosing?, if_pos]
  by_contra hlong
  refine h ?_
  have hrun : s.takeWhile (· == quote) = List.replicate (s.takeWhile (· == quote)).length quote :=
    List.eq_replicate_iff.mpr ⟨rfl, fun c hc => by simpa using List.mem_takeWhile_imp hc⟩
  obtain ⟨k, hk⟩ := Nat.exists_eq_add_of_le (Nat.not_lt.mp hlong)
  rw [hk, List.replicate_add] at hrun
  exact (List.prefix_append _ _).trans (hrun ▸ List.takeWhile_prefix _)

theorem takeClosing?_replicate {k : Nat} (hk : k ≤ 2) (hrest : NoneAhead (· == quote) rest) :
    takeClosing? quote (List.replicate (k + 3) quote ++ rest) =
      some (List.replicate k quote, rest) := by
  have hquotes : ∀ c ∈ List.replicate (k + 3) quote, (c == quote) = true := fun c hc =>
    beq_iff_eq.mpr (List.eq_of_mem_replicate hc)
  have hextra : min (k + 3 - 3) 2 = k := by omega
  rw [takeClosing?, (takeWhile_append_of_noneAhead hquotes hrest).1, List.length_replicate,
    if_neg (by omega), hextra]
  exact congrArg (fun r => some (List.replicate k quote, r)) (List.drop_left' List.length_replicate)

theorem takeClosing?_of_ne (h : c ≠ quote) : takeClosing? quote (c :: rest) = none :=
  takeClosing?_of_not_prefix fun hpre => h (List.cons_prefix_cons.mp hpre).1.symm

/-! ### One step in a long string -/

theorem ne_of_isText (h : isText c = true) : c ≠ '\n' ∧ c ≠ '\r' := by
  constructor <;> rintro rfl <;> cases h

theorem readLongBasic?_plain (hclosing : takeClosing? '"' (c :: rest) = none)
    (hc : isText c = true) (hback : c ≠ '\\') :
    readLongBasic? (fuel + 1) (c :: rest) = before c (readLongBasic? fuel rest) := by
  obtain ⟨hfeed, hreturn⟩ := ne_of_isText hc
  rw [readLongBasic?]
  · rw [hclosing, hc, bne_iff_ne.mpr hback]
    rfl
  all_goals
    intros
    simp_all

theorem readLongBasic?_newline (hn : Newline n) :
    readLongBasic? (fuel + 1) (n ++ rest) = before '\n' (readLongBasic? fuel rest) := by
  cases hn with
  | feed =>
    conv => lhs; unfold readLongBasic?
    rw [List.cons_append, takeClosing?_of_ne (by decide)]
    rfl
  | both =>
    conv => lhs; unfold readLongBasic?
    rw [List.cons_append, takeClosing?_of_ne (by decide)]
    rfl

theorem readLongBasic?_escape (h : EscapeSpelled c e) :
    readLongBasic? (fuel + 1) ('\\' :: (e ++ rest)) = before c (readLongBasic? fuel rest) := by
  conv => lhs; unfold readLongBasic?
  rw [takeClosing?_of_ne (by decide)]
  cases h with
  | short h =>
    simp only [shortEscapes, List.mem_cons, Prod.mk.injEq, List.not_mem_nil, or_false] at h
    rcases h with ⟨rfl, rfl⟩ | ⟨rfl, rfl⟩ | ⟨rfl, rfl⟩ | ⟨rfl, rfl⟩ | ⟨rfl, rfl⟩ | ⟨rfl, rfl⟩ |
      ⟨rfl, rfl⟩ <;> cases hrest : readLongBasic? fuel rest <;>
      simp [skipGap, isGap, takeNewline?, shortEscape?, before, hrest]
  | four hlength hds hvalid =>
    obtain ⟨a, b, c, d, rfl⟩ := exists_of_length_four hlength
    simp only [List.cons_append, List.nil_append, scalar?_eq hds hvalid]
    cases readLongBasic? fuel rest <;> rfl
  | eight hlength hds hvalid =>
    obtain ⟨a, b, c, d, e, f, g, i, rfl⟩ := exists_of_length_eight hlength
    simp only [List.cons_append, List.nil_append, scalar?_eq hds hvalid]
    cases readLongBasic? fuel rest <;> rfl

theorem skipGap_append (hg : Gap g) (hrest : NoneAhead isGap rest) : skipGap (g ++ rest) = rest :=
  (takeWhile_append_of_noneAhead hg hrest).2

/-- A backslash at the end of a line. -/
theorem readLongBasic?_continued (hg : Gap g) (hn : Newline n) :
    readLongBasic? (fuel + 1) ('\\' :: (g ++ (n ++ rest))) =
      readLongBasic? fuel (skipLines rest) := by
  have hline : takeNewline? (skipGap (g ++ (n ++ rest))) = some rest := by
    rw [skipGap_append hg, takeNewline?_newline hn]
    cases hn <;> exact noneAhead_cons rfl
  have hhead : ∃ x xs, g ++ (n ++ rest) = x :: xs ∧ x ≠ 'u' ∧ x ≠ 'U' := by
    cases g with
    | nil => cases hn <;> exact ⟨_, _, rfl, by decide, by decide⟩
    | cons x g =>
      rcases isGap_iff.mp (hg x List.mem_cons_self) with rfl | rfl <;>
        exact ⟨_, _, rfl, by decide, by decide⟩
  obtain ⟨x, xs, heq, hu, hU⟩ := hhead
  rw [heq] at hline ⊢
  rw [readLongBasic?.eq_def]
  simp only [takeClosing?_of_ne (show '\\' ≠ '"' by decide)]
  split
  case h_7 heq =>
    obtain ⟨rfl, rfl⟩ := List.cons.inj heq
    simp_all
  all_goals simp_all

theorem readLongLiteral?_plain (hclosing : takeClosing? '\'' (c :: rest) = none)
    (hc : isText c = true) :
    readLongLiteral? (fuel + 1) (c :: rest) = before c (readLongLiteral? fuel rest) := by
  obtain ⟨hfeed, hreturn⟩ := ne_of_isText hc
  rw [readLongLiteral?]
  · rw [hclosing, hc]
    rfl
  all_goals
    intros
    simp_all

theorem readLongLiteral?_newline (hn : Newline n) :
    readLongLiteral? (fuel + 1) (n ++ rest) = before '\n' (readLongLiteral? fuel rest) := by
  cases hn with
  | feed =>
    conv => lhs; unfold readLongLiteral?
    rw [List.cons_append, takeClosing?_of_ne (by decide)]
    rfl
  | both =>
    conv => lhs; unfold readLongLiteral?
    rw [List.cons_append, takeClosing?_of_ne (by decide)]
    rfl

/-! ### Long strings -/

variable {escapes : Bool}

theorem LongSpelled.length_pos (h : LongSpelled escapes quote s t) : 3 ≤ t.length := by
  induction h with
  | close => simp
  | plain | quote | newline | escape | continued => simp only [List.length_cons, List.length_append]; omega

/-- One or two quotes in a long string do not close it. -/
theorem takeClosing?_quote (hlength : 3 ≤ t.length) (hq : ¬ [quote, quote] <+: t)
    (rest : List Char) : takeClosing? quote (quote :: (t ++ rest)) = none := by
  refine takeClosing?_of_not_prefix fun hpre => hq ?_
  have hlong : [quote, quote] <+: t ++ rest := (List.cons_prefix_cons.mp hpre).2
  exact List.prefix_of_prefix_length_le hlong (List.prefix_append t rest) (by simp; omega)

/-- **A string between three double quotes is read.** -/
theorem readLongBasic?_of_spelled (h : LongSpelled true '"' s t)
    (hrest : NoneAhead (· == '"') rest) (hfuel : t.length ≤ fuel) :
    readLongBasic? fuel (t ++ rest) = some (s, rest) := by
  induction h generalizing fuel with
  | close hk =>
    obtain ⟨fuel, rfl⟩ : ∃ f, fuel = f + 1 := ⟨fuel - 1, by simp at hfuel; omega⟩
    rw [readLongBasic?.eq_def]
    simp only [takeClosing?_replicate hk hrest]
  | plain hc hquote hback h ih =>
    obtain ⟨fuel, rfl⟩ : ∃ f, fuel = f + 1 := ⟨fuel - 1, by simp at hfuel; omega⟩
    rw [List.cons_append, readLongBasic?_plain (takeClosing?_of_ne hquote) hc (hback rfl),
      ih (by simpa using hfuel)]
    rfl
  | quote hq h ih =>
    obtain ⟨fuel, rfl⟩ : ∃ f, fuel = f + 1 := ⟨fuel - 1, by simp at hfuel; omega⟩
    rw [List.cons_append, readLongBasic?_plain (takeClosing?_quote h.length_pos hq rest) rfl
      (by decide), ih (by simpa using hfuel)]
    rfl
  | newline hn h ih =>
    have hlong : 1 ≤ List.length _ := Newline.length_pos hn
    obtain ⟨fuel, rfl⟩ : ∃ f, fuel = f + 1 := ⟨fuel - 1, by simp at hfuel; omega⟩
    rw [List.append_assoc, readLongBasic?_newline hn, ih (by simp at hfuel; omega)]
    rfl
  | escape _ he h ih =>
    obtain ⟨fuel, rfl⟩ : ∃ f, fuel = f + 1 := ⟨fuel - 1, by simp at hfuel; omega⟩
    rw [List.cons_append, List.append_assoc, readLongBasic?_escape he,
      ih (by simp at hfuel; omega)]
    rfl
  | continued _ hg hn hb hgap hnewline h ih =>
    obtain ⟨fuel, rfl⟩ : ∃ f, fuel = f + 1 := ⟨fuel - 1, by simp at hfuel; omega⟩
    have hlong := h.length_pos
    simp only [List.cons_append, List.append_assoc]
    rw [readLongBasic?_continued hg hn, skipLines_blanks hb,
      skipLines_append (by omega) hgap hnewline, ih (by simp at hfuel; omega)]

/-- **A string between three single quotes is read.** -/
theorem readLongLiteral?_of_spelled (h : LongSpelled false '\'' s t)
    (hrest : NoneAhead (· == '\'') rest) (hfuel : t.length ≤ fuel) :
    readLongLiteral? fuel (t ++ rest) = some (s, rest) := by
  induction h generalizing fuel with
  | close hk =>
    obtain ⟨fuel, rfl⟩ : ∃ f, fuel = f + 1 := ⟨fuel - 1, by simp at hfuel; omega⟩
    rw [readLongLiteral?.eq_def]
    simp only [takeClosing?_replicate hk hrest]
  | plain hc hquote _ h ih =>
    obtain ⟨fuel, rfl⟩ : ∃ f, fuel = f + 1 := ⟨fuel - 1, by simp at hfuel; omega⟩
    rw [List.cons_append, readLongLiteral?_plain (takeClosing?_of_ne hquote) hc,
      ih (by simpa using hfuel)]
    rfl
  | quote hq h ih =>
    obtain ⟨fuel, rfl⟩ : ∃ f, fuel = f + 1 := ⟨fuel - 1, by simp at hfuel; omega⟩
    rw [List.cons_append, readLongLiteral?_plain (takeClosing?_quote h.length_pos hq rest) rfl,
      ih (by simpa using hfuel)]
    rfl
  | newline hn h ih =>
    have hlong := hn.length_pos
    obtain ⟨fuel, rfl⟩ : ∃ f, fuel = f + 1 := ⟨fuel - 1, by simp at hfuel; omega⟩
    rw [List.append_assoc, readLongLiteral?_newline hn, ih (by simp at hfuel; omega)]
    rfl
  | escape hescapes | continued hescapes => cases hescapes

/-! ### All sorts -/

/-- A string of one line that is not empty does not look like a long one, and an empty one only if a
quote comes next. -/
theorem readString?_basic (h : BasicSpelled s t) (hrest : NoneAhead (· == '"') rest) :
    readString? ('"' :: (t ++ '"' :: rest)) = some (s, rest) := by
  have hread := readBasic?_of_spelled h rest
  unfold readString?
  split
  · next heq =>
    have heq := (List.cons.inj heq).2
    cases h with
    | nil =>
      cases rest with
      | nil => cases heq
      | cons c rest =>
        obtain rfl := (List.cons.inj (List.cons.inj heq).2).1
        cases hrest '"' rfl
    | plain hc hquote => exact absurd (List.cons.inj heq).1 hquote
    | escape => cases (List.cons.inj heq).1
  · next heq => cases (List.cons.inj heq).1
  · next heq =>
    rw [← (List.cons.inj heq).2, hread]
  · next heq => cases (List.cons.inj heq).1
  · next hnot _ => exact absurd rfl (hnot _)

theorem readString?_literal (h : LiteralText s) (hrest : NoneAhead (· == '\'') rest) :
    readString? ('\'' :: (s ++ '\'' :: rest)) = some (s, rest) := by
  have hread := readLiteral?_of_text h rest
  unfold readString?
  split
  · next heq => cases (List.cons.inj heq).1
  · next heq =>
    have heq := (List.cons.inj heq).2
    cases s with
    | nil =>
      cases rest with
      | nil => cases heq
      | cons c rest =>
        obtain rfl := (List.cons.inj (List.cons.inj heq).2).1
        cases hrest '\'' rfl
    | cons c s => exact absurd (List.cons.inj heq).1 (h c List.mem_cons_self).2
  · next heq => cases (List.cons.inj heq).1
  · next heq =>
    rw [← (List.cons.inj heq).2, hread]
  · next hnot => exact absurd rfl (hnot _)

/-- **Every spelling of a string is read.** -/
theorem readString?_of_spelled (h : StringSpelled s t)
    (hrest : NoneAhead (fun c => c == '"' || c == '\'') rest) :
    readString? (t ++ rest) = some (s, rest) := by
  have hdouble : NoneAhead (· == '"') rest := fun c hc => (Bool.or_eq_false_iff.mp (hrest c hc)).1
  have hsingle : NoneAhead (· == '\'') rest := fun c hc => (Bool.or_eq_false_iff.mp (hrest c hc)).2
  cases h with
  | basic h =>
    rw [List.cons_append, List.append_assoc]
    exact readString?_basic h hdouble
  | literal h =>
    rw [List.cons_append, List.append_assoc]
    exact readString?_literal h hsingle
  | longBasic hn h =>
    have hlong := h.length_pos
    show readLongBasic? ((_ ++ _ ++ rest).length + 1) (dropFirstLine (_ ++ _ ++ rest)) = _
    rw [dropFirstLine_eq (by omega) hn,
      readLongBasic?_of_spelled h hdouble (by simp only [List.length_append]; omega)]
  | longLiteral hn h =>
    have hlong := h.length_pos
    show readLongLiteral? ((_ ++ _ ++ rest).length + 1) (dropFirstLine (_ ++ _ ++ rest)) = _
    rw [dropFirstLine_eq (by omega) hn,
      readLongLiteral?_of_spelled h hsingle (by simp only [List.length_append]; omega)]

end LoadRig.Toml
