import LoadRig.Proofs.Toml.Numbers
import LoadRig.Proofs.Toml.Strings
import Mathlib.Data.List.DropRight
/-!
# Every document is read

Whatever way values, keys and lines are spelled, they are read back as themselves, as long as they keep
within the bounds. For a whole document this means that it is read as the tables that its lines make,
line by line; whether they can make any is a question about names alone.

The reader counts its steps down from twice the length of a value, since every second step uses up a
character: each statement asks for no more steps than that.

## Main results

* `LoadRig.Toml.readKey?_of_spelled` — keys.
* `LoadRig.Toml.reads_of_spelled` — values, and what is inside brackets and braces.
* `LoadRig.Toml.readLine?_of_spelled` — lines.
* `LoadRig.Toml.parse?_of_spelled`, `LoadRig.Toml.exists_parse?` — whole documents.
-/

namespace LoadRig.Toml

open LoadRig.Text

variable {c : Char} {cs t g g' f f' n e k rest tail : List Char} {path u u' : Path} {v : Item}
  {es es' : Entries} {ss : List Statement} {fuel d : Nat}

/-! ### Keys -/

/-- Whether a character may begin a key. -/
def beginsKey (c : Char) : Bool := isBare c || c == '"' || c == '\''

/-- The characters that may come behind a key. -/
def KeyEnds (rest : List Char) : Prop := rest.head? = some '=' ∨ rest.head? = some ']'

theorem KeyEnds.noneAhead {p : Char → Bool} (h : KeyEnds rest) (hp : p '=' = false)
    (hp' : p ']' = false) : NoneAhead p rest := by
  intro c hc
  rcases h with h | h
  · obtain rfl := Option.some.inj (h.symm.trans hc)
    exact hp
  · obtain rfl := Option.some.inj (h.symm.trans hc)
    exact hp'

theorem skipGap_skipGap (cs : List Char) : skipGap (skipGap cs) = skipGap cs :=
  List.dropWhile_idempotent _ cs

theorem skipGap_of_noneAhead (h : NoneAhead isGap rest) : skipGap rest = rest :=
  skipGap_append gap_nil h

theorem Gap.noneAhead {p : Char → Bool} (hg : Gap g) (hspace : p ' ' = false) (htab : p '\t' = false) :
    NoneAhead p g := by
  intro c hc
  rcases isGap_iff.mp (hg c (List.mem_of_mem_head? hc)) with rfl | rfl
  · exact hspace
  · exact htab

theorem PartSpelled.exists_cons {p : List Char} (h : PartSpelled p t) :
    ∃ c t', t = c :: t' ∧ beginsKey c = true := by
  cases h with
  | bare hne h =>
    obtain ⟨c, t', rfl⟩ := List.exists_cons_of_ne_nil hne
    exact ⟨c, t', rfl, by simp [beginsKey, h c List.mem_cons_self]⟩
  | basic => exact ⟨_, _, rfl, rfl⟩
  | literal => exact ⟨_, _, rfl, rfl⟩

/-- What begins a key is no blank, no mark of a line and no bracket. -/
theorem beginsKey_spec (h : beginsKey c = true) :
    isGap c = false ∧ c ≠ '#' ∧ c ≠ '\n' ∧ c ≠ '\r' ∧ c ≠ '[' ∧ c ≠ '}' ∧ c ≠ '\ufeff' := by
  refine ⟨?_, ?_, ?_, ?_, ?_, ?_, ?_⟩
  · by_contra hgap
    rw [Bool.not_eq_false] at hgap
    rcases isGap_iff.mp hgap with rfl | rfl <;> cases h
  all_goals
    rintro rfl
    revert h
    decide

theorem readPart?_of_spelled {p : List Char} (h : PartSpelled p t) (hrest : NoneAhead isBare rest) :
    readPart? (t ++ rest) = some (p, rest) := by
  cases h with
  | bare hne h =>
    obtain ⟨htake, hdrop⟩ := takeWhile_append_of_noneAhead h hrest
    obtain ⟨c, t', rfl⟩ := List.exists_cons_of_ne_nil hne
    have hc := h c List.mem_cons_self
    rw [readPart?]
    · rw [htake, hdrop]
      rfl
    all_goals
      rintro rest' heq
      obtain ⟨rfl, -⟩ := List.cons.inj heq
      revert hc
      decide
  | basic h =>
    rw [List.cons_append, List.append_assoc]
    exact readBasic?_of_spelled h rest
  | literal h =>
    rw [List.cons_append, List.append_assoc]
    exact readLiteral?_of_text h rest

theorem PartSpelled.noneAhead_gap {p : List Char} (h : PartSpelled p t) (rest : List Char) :
    NoneAhead isGap (t ++ rest) := by
  obtain ⟨c, t', rfl, hc⟩ := h.exists_cons
  exact noneAhead_cons (beginsKey_spec hc).1

/-- Behind a point the key goes on. -/
theorem readParts?_cons {p : List Char} (hg : Gap g) (h : PartSpelled p t) (hg' : Gap g')
    (rest : List Char) : readParts? (fuel + 1) (g ++ (t ++ (g' ++ '.' :: rest))) =
      (readParts? fuel rest).map fun (path, rest) => (p :: path, rest) := by
  rw [readParts?, skipGap_append hg (h.noneAhead_gap _), readPart?_of_spelled h]
  · simp only [Option.bind_eq_bind, Option.bind_some]
    rw [skipGap_append hg' (noneAhead_cons rfl)]
    cases hparts : readParts? fuel rest <;> simp only [hparts] <;> rfl
  · exact (hg'.noneAhead rfl rfl).append (noneAhead_cons rfl)

theorem readParts?_of_spelled (h : PartsOfKey path k) (hrest : KeyEnds rest)
    (hfuel : path.length ≤ fuel) : readParts? fuel (k ++ rest) = some (path, rest) := by
  induction h generalizing fuel with
  | last hg h hg' =>
    obtain ⟨fuel, rfl⟩ : ∃ f, fuel = f + 1 := ⟨fuel - 1, by simp at hfuel; omega⟩
    have hpoint : NoneAhead (· == '.') rest := hrest.noneAhead rfl rfl
    simp only [List.append_assoc]
    rw [readParts?, skipGap_append hg (h.noneAhead_gap _), readPart?_of_spelled h]
    · simp only [Option.bind_eq_bind, Option.bind_some]
      rw [skipGap_append hg' (hrest.noneAhead rfl rfl)]
      split
      · cases hpoint '.' rfl
      · rfl
    · exact (hg'.noneAhead rfl rfl).append (hrest.noneAhead rfl rfl)
  | cons hg h hg' hs ih =>
    obtain ⟨fuel, rfl⟩ : ∃ f, fuel = f + 1 := ⟨fuel - 1, by simp at hfuel; omega⟩
    simp only [List.append_assoc, List.cons_append]
    rw [readParts?_cons hg h hg', ih (by simpa using hfuel)]
    rfl

/-- **Every spelling of a key is read**, as long as it keeps within the bound. -/
theorem readKey?_of_spelled (h : KeySpelled true path k) (hrest : KeyEnds rest) :
    readKey? (k ++ rest) = some (path, rest) :=
  readParts?_of_spelled h.parts hrest (Nat.le_sub_one_of_lt (h.bound rfl))

/-- Blanks before a key do not count. -/
theorem readKey?_skipGap (cs : List Char) : readKey? (skipGap cs) = readKey? cs := by
  show readParts? (78 + 1) _ = readParts? (78 + 1) _
  rw [readParts?, readParts?, skipGap_skipGap]

/-- Behind the blanks before a key there is something that may begin one. -/
theorem KeySpelled.exists_skipGap {bounded : Bool} (h : KeySpelled bounded path k) (rest : List Char) :
    ∃ c cs, skipGap (k ++ rest) = c :: cs ∧ beginsKey c = true := by
  have hfirst : ∀ {p g t : List Char} (x : List Char), Gap g → PartSpelled p t →
      ∃ c cs, skipGap (g ++ (t ++ x)) = c :: cs ∧ beginsKey c = true := by
    intro p g t x hg h
    obtain ⟨c, t', rfl, hc⟩ := h.exists_cons
    refine ⟨c, t' ++ x, ?_, hc⟩
    exact skipGap_append hg (noneAhead_cons (beginsKey_spec hc).1)
  obtain ⟨h, -⟩ := h
  cases h with
  | last hg h hg' =>
    simp only [List.append_assoc]
    exact hfirst _ hg h
  | cons hg h hg' hs =>
    simp only [List.append_assoc]
    exact hfirst _ hg h

/-- A key begins with a blank or with something that may begin one. -/
theorem KeySpelled.noneAhead {bounded : Bool} {p : Char → Bool} (h : KeySpelled bounded path k)
    (hspace : p ' ' = false) (htab : p '\t' = false)
    (hbegins : ∀ c, beginsKey c = true → p c = false) : NoneAhead p k := by
  have hfirst : ∀ {q g t : List Char} (x : List Char), Gap g → PartSpelled q t →
      NoneAhead p (g ++ (t ++ x)) := by
    intro q g t x hg h
    obtain ⟨c, t', rfl, hc⟩ := h.exists_cons
    exact (hg.noneAhead hspace htab).append (noneAhead_cons (hbegins c hc))
  obtain ⟨h, -⟩ := h
  cases h with
  | last hg h hg' => exact hfirst _ hg h
  | cons hg h hg' hs => exact hfirst _ hg h

/-! ### What stands between values -/

/-- The characters that no value begins with, nor a comma or a bracket. -/
def isFiller (c : Char) : Bool := isGap c || c == '#' || c == '\n' || c == '\r'

theorem takeNewline?_of_noneAhead (h : NoneAhead isFiller rest) : takeNewline? rest = none := by
  unfold takeNewline?
  split
  · cases h '\n' rfl
  · cases h '\r' rfl
  · rfl

theorem Newline.noneAhead {p : Char → Bool} (hn : Newline n) (hfeed : p '\n' = false)
    (hreturn : p '\r' = false) (rest : List Char) : NoneAhead p (n ++ rest) := by
  cases hn with
  | feed => exact noneAhead_cons hfeed
  | both => exact noneAhead_cons hreturn

/-- **Blanks, comments and line ends are passed over.** -/
theorem skipFiller_of_filler (h : Filler f) (hrest : NoneAhead isFiller rest)
    (hfuel : f.length < fuel) : skipFiller fuel (f ++ rest) = some rest := by
  induction h generalizing fuel with
  | gap hg =>
    obtain ⟨fuel, rfl⟩ : ∃ m, fuel = m + 1 := ⟨fuel - 1, by omega⟩
    have hgap : NoneAhead isGap rest := fun c hc => by
      have hc := hrest c hc
      simp only [isFiller, Bool.or_eq_false_iff] at hc
      exact hc.1.1.1
    rw [skipFiller, skipGap_append hg hgap]
    split
    · cases hrest '#' rfl
    · rw [takeNewline?_of_noneAhead hrest]
  | line ht hn h ih =>
    obtain ⟨fuel, rfl⟩ : ∃ m, fuel = m + 1 := ⟨fuel - 1, by omega⟩
    have hlength := hn.length_pos
    simp only [List.length_append] at hfuel
    cases ht with
    | blank hg =>
      simp only [List.append_assoc]
      rw [skipFiller, skipGap_append hg (hn.noneAhead rfl rfl _)]
      split
      · next heq => cases hn <;> cases (List.cons.inj heq).1
      · rw [takeNewline?_newline hn]
        exact ih (by omega)
    | comment hg htext =>
      simp only [List.append_assoc, List.cons_append]
      rw [skipFiller, skipGap_append hg (noneAhead_cons rfl)]
      simp only [(takeWhile_append_of_noneAhead htext (hn.noneAhead rfl rfl _)).2,
        takeNewline?_newline hn]
      exact ih (by omega)

theorem skipFiller_length (h : Filler f) (hrest : NoneAhead isFiller rest) :
    skipFiller ((f ++ rest).length + 1) (f ++ rest) = some rest :=
  skipFiller_of_filler h hrest (by rw [List.length_append]; omega)

/-! ### Values -/

/-- Whether a character may begin a value. -/
def beginsValue (c : Char) : Bool :=
  c.isDigit || ['"', '\'', '[', '{', 't', 'f', '+', '-', 'i', 'n'].contains c

/-- What begins a number. -/
def beginsNumber (c : Char) : Bool := c.isDigit || ['+', '-', 'i', 'n'].contains c

theorem NumberSpelled.exists_cons {bounded : Bool} (h : NumberSpelled bounded v t) :
    ∃ c t', t = c :: t' ∧ beginsNumber c = true := by
  have hsigned : ∀ {negative : Bool} {sign cs : List Char}, SignSpelled negative sign →
      (∃ c t', cs = c :: t' ∧ beginsNumber c = true) →
      ∃ c t', sign ++ cs = c :: t' ∧ beginsNumber c = true := by
    intro negative sign cs hsign hcs
    cases hsign with
    | absent => exact hcs
    | plus | minus => exact ⟨_, _, rfl, rfl⟩
  have hdecimal : ∀ {ds t : List Char} (x : List Char), DecimalSpelled ds t →
      ∃ c t', t ++ x = c :: t' ∧ beginsNumber c = true := by
    intro ds t x h
    obtain ⟨c, t', rfl, hc, -⟩ := h.exists_cons
    exact ⟨c, t' ++ x, rfl, by simp [beginsNumber, hc]⟩
  cases h with
  | decimal hsign hds =>
    have hbegins := hdecimal [] hds
    rw [List.append_nil] at hbegins
    exact hsigned hsign hbegins
  | based => exact ⟨_, _, rfl, rfl⟩
  | float hsign hds => exact hsigned hsign (hdecimal _ hds)
  | infinite hsign | undefined hsign => exact hsigned hsign ⟨_, _, rfl, rfl⟩

theorem FieldSpelled.exists_cons {n low high x : Nat} (h : FieldSpelled (n + 1) low high x t) :
    ∃ c t', t = c :: t' ∧ c.isDigit = true := by
  have hne : t ≠ [] := by
    rintro rfl
    cases h.length
  obtain ⟨c, t', rfl⟩ := List.exists_cons_of_ne_nil hne
  exact ⟨c, t', rfl, h.digits c List.mem_cons_self⟩

theorem MomentSpelled.exists_cons (h : MomentSpelled t) :
    ∃ c t', t = c :: t' ∧ beginsNumber c = true := by
  have hdate : ∀ {t : List Char} (x : List Char), DateSpelled t →
      ∃ c t', t ++ x = c :: t' ∧ beginsNumber c = true := by
    rintro t x ⟨hy, hm, hd⟩
    obtain ⟨c, t', rfl, hc⟩ := hy.exists_cons
    exact ⟨c, _, rfl, by simp [beginsNumber, hc]⟩
  cases h with
  | date hd =>
    have hbegins := hdate [] hd
    rwa [List.append_nil] at hbegins
  | time ht =>
    obtain ⟨hh, hm, hsec, hf⟩ := ht
    obtain ⟨c, t', rfl, hc⟩ := hh.exists_cons
    exact ⟨c, _, rfl, by simp [beginsNumber, hc]⟩
  | both hd => exact hdate _ hd

/-- A value begins with what may begin one. -/
theorem Spelled.exists_cons {bounded : Bool} (h : Spelled bounded d (.value v) t) :
    ∃ c t', t = c :: t' ∧ beginsValue c = true := by
  have hnumber : ∀ {c : Char}, beginsNumber c = true → beginsValue c = true := by
    intro c hc
    simp only [beginsNumber, Bool.or_eq_true, List.contains_iff_mem] at hc
    simp only [beginsValue, Bool.or_eq_true, List.contains_iff_mem]
    exact hc.imp_right fun hmem => by
      simp only [List.mem_cons, List.not_mem_nil, or_false] at hmem ⊢
      tauto
  cases h with
  | string h => cases h <;> exact ⟨_, _, rfl, rfl⟩
  | yes | no | array | emptyInline | inline => exact ⟨_, _, rfl, rfl⟩
  | number h =>
    obtain ⟨c, t', ht, hc⟩ := h.exists_cons
    exact ⟨c, t', ht, hnumber hc⟩
  | moment h =>
    obtain ⟨c, t', ht, hc⟩ := h.exists_cons
    exact ⟨c, t', ht, hnumber hc⟩

theorem StringSpelled.exists_cons {s : List Char} (h : StringSpelled s t) :
    ∃ c t', t = c :: t' ∧ (c = '"' ∨ c = '\'') := by
  cases h with
  | basic | longBasic => exact ⟨_, _, rfl, .inl rfl⟩
  | literal | longLiteral => exact ⟨_, _, rfl, .inr rfl⟩

/-- What begins a string is read as one. -/
theorem readValue?_quote (hc : c = '"' ∨ c = '\'') (cs : List Char) :
    readValue? (fuel + 1) d (c :: cs) =
      (readString? (c :: cs)).map fun (s, rest) => (.string s, rest) := by
  rcases hc with rfl | rfl <;> rfl

/-- What begins a number is read as one. -/
theorem readValue?_number (hc : beginsNumber c = true) (cs : List Char) :
    readValue? (fuel + 1) d (c :: cs) = readNumber? (c :: cs) := by
  have hne : c ∉ ['"', '\'', '[', '{', 't', 'f'] := by
    intro hmem
    simp only [List.mem_cons, List.not_mem_nil, or_false] at hmem
    rcases hmem with rfl | rfl | rfl | rfl | rfl | rfl <;> revert hc <;> decide
  simp only [List.mem_cons, List.not_mem_nil, or_false, not_or] at hne
  rw [readValue?]
  all_goals
    intros
    simp_all

theorem beginsValue_spec (h : beginsValue c = true) :
    isGap c = false ∧ isFiller c = false ∧ c ≠ ']' := by
  have hne : c ∉ [' ', '\t', '#', '\n', '\r', ']'] := by
    intro hmem
    simp only [List.mem_cons, List.not_mem_nil, or_false] at hmem
    rcases hmem with rfl | rfl | rfl | rfl | rfl | rfl <;> revert h <;> decide
  simp only [List.mem_cons, List.not_mem_nil, or_false, not_or] at hne
  refine ⟨?_, ?_, hne.2.2.2.2.2⟩
  · simp [isGap, hne]
  · simp [isFiller, isGap, hne]

theorem closes_nil : Closes [] :=
  ⟨[], [], rfl, gap_nil, fun _ hc => absurd hc (Option.not_mem_none _)⟩

theorem Closes.cons (hc : c ∈ closers) (rest : List Char) : Closes (c :: rest) :=
  ⟨[], c :: rest, rfl, gap_nil, fun _ hd => Option.some.inj hd ▸ hc⟩

theorem Closes.gap (h : Closes rest) (hg : Gap g) : Closes (g ++ rest) := by
  obtain ⟨g', e, rfl, hg', he⟩ := h
  refine ⟨g ++ g', e, (List.append_assoc ..).symm, fun c hc => ?_, he⟩
  exact (List.mem_append.mp hc).elim (hg c) (hg' c)

theorem Newline.closes (hn : Newline n) (rest : List Char) : Closes (n ++ rest) := by
  cases hn <;> exact Closes.cons (by decide) _

theorem Trail.closes (he : Trail e) (h : Closes rest) : Closes (e ++ rest) := by
  cases he with
  | blank hg => exact h.gap hg
  | comment hg htext =>
    rw [List.append_assoc]
    exact (Closes.cons (by decide) _).gap hg

theorem Filler.closes (hf : Filler f) (h : Closes rest) : Closes (f ++ rest) := by
  cases hf with
  | gap hg => exact h.gap hg
  | line ht hn hf =>
    rw [List.append_assoc, List.append_assoc]
    exact ht.closes (hn.closes _)

/-- One value in brackets, and what follows it. -/
theorem readItems?_value {m : Char} (hf : Filler f) (h : Spelled true d (.value v) t)
    (hf' : Filler f') (hm : isFiller m = false)
    (hread : readValue? fuel d (t ++ (f' ++ m :: rest)) = some (v, f' ++ m :: rest)) :
    readItems? (fuel + 1) d (f ++ (t ++ (f' ++ m :: rest))) =
      match m :: rest with
      | ',' :: rest => do
        let (items, rest) ← readItems? fuel d rest
        return (v :: items, rest)
      | ']' :: rest => some ([v], rest)
      | _ => none := by
  obtain ⟨c, t', rfl, hc⟩ := h.exists_cons
  obtain ⟨-, hfiller, hclose⟩ := beginsValue_spec hc
  rw [List.cons_append] at hread ⊢
  rw [readItems?, skipFiller_length hf (noneAhead_cons hfiller)]
  simp only [Option.bind_eq_bind, Option.bind_some]
  split
  · next heq => exact absurd (List.cons.inj heq).1 hclose
  · rw [hread, Option.bind_some, skipFiller_length hf' (noneAhead_cons hm), Option.bind_some]
    rfl

/-- One pair in braces, and what follows it. -/
theorem readPairs?_pair {m : Char} (hk : KeySpelled true path k) (hg : Gap g)
    (h : Spelled true d (.value v) t) (hg' : Gap g') (hm : isGap m = false)
    (hread : readValue? fuel d (t ++ (g' ++ m :: rest)) = some (v, g' ++ m :: rest))
    (hadd : addKey? path v es = some es') :
    readPairs? (fuel + 1) d es (k ++ '=' :: (g ++ (t ++ (g' ++ m :: rest)))) =
      match m :: rest with
      | ',' :: rest => readPairs? fuel d es' rest
      | '}' :: rest => some (es', rest)
      | _ => none := by
  obtain ⟨c, t', rfl, hc⟩ := h.exists_cons
  rw [List.cons_append] at hread ⊢
  rw [readPairs?, readKey?_of_spelled hk (.inl rfl)]
  simp only [Option.bind_eq_bind, Option.bind_some]
  rw [skipGap_append hg (noneAhead_cons (beginsValue_spec hc).1), hread, Option.bind_some, hadd,
    Option.bind_some, skipGap_append hg' (noneAhead_cons hm)]
  rfl

theorem readPairs?_skipGap (cs : List Char) :
    readPairs? fuel d es (skipGap cs) = readPairs? fuel d es cs := by
  cases fuel with
  | zero => rfl
  | succ fuel => rw [readPairs?, readPairs?, readKey?_skipGap]

/-- Pairs in braces begin with the key of the first. -/
theorem Spelled.exists_skipGap {bounded : Bool} {ps : List (Path × Item)}
    (h : Spelled bounded d (.pairs ps) t) (rest : List Char) :
    ∃ c cs, skipGap (t ++ rest) = c :: cs ∧ beginsKey c = true := by
  cases h with
  | lastPair hk | pair hk =>
    rw [List.append_assoc]
    exact hk.exists_skipGap _

/-- What is in braces is read as pairs, if there is anything. -/
theorem readValue?_brace {bounded : Bool} {ps : List (Path × Item)} (hd : d + 1 < tooDeep)
    (h : Spelled bounded (d + 1) (.pairs ps) t) (rest : List Char) :
    readValue? (fuel + 1) d ('{' :: (t ++ rest)) =
      (readPairs? fuel (d + 1) [] (t ++ rest)).map fun (entries, rest) => (.inline entries, rest) := by
  obtain ⟨c, cs, heq, hc⟩ := h.exists_skipGap rest
  have hbrace : c ≠ '}' := (beginsKey_spec hc).2.2.2.2.2.1
  rw [readValue?, if_neg (Nat.not_le.mpr hd), ← readPairs?_skipGap, heq]
  split
  · next heq => exact absurd (List.cons.inj heq).1 hbrace
  · rfl

/-- What a value is for the lines after it. -/
theorem Spelled.kind_eq {bounded : Bool} (h : Spelled bounded d (.value v) t) :
    v.kind = .value v := by
  cases h with
  | number h => cases h <;> rfl
  | _ => rfl

/-- The pairs in braces give each key a value. -/
theorem Spelled.follows {bounded : Bool} {ps : List (Path × Item)}
    (h : Spelled bounded d (.pairs ps) t) : Follows [] (linesOf ps) := by
  generalize hph : Phrase.pairs ps = ph at h
  induction h generalizing ps with
  | lastPair hk hg h hg' =>
    cases hph
    exact ⟨rfl, h.kind_eq, trivial⟩
  | pair hk hg h hg' hs _ ih =>
    cases hph
    exact ⟨rfl, h.kind_eq, ih rfl⟩
  | _ => cases hph

/-- The entries of an inline table are those that its pairs make. -/
theorem Spelled.build?_eq {bounded : Bool} {ps : List (Path × Item)}
    (h : Spelled bounded d (.pairs ps) t) (honce : NamesOnce [] (linesOf ps)) :
    build? (linesOf ps) [] = some (entriesOf ps) := by
  obtain ⟨es, hes, -⟩ := exists_build? faithful_nil opened_nil h.follows honce
  rw [entriesOf, hes]
  rfl

/-- What it means that a stretch of text is read. -/
def Reads (d : Nat) : Phrase → List Char → Prop
  | .value v, t => ∀ fuel rest, Closes rest → 2 * t.length ≤ fuel →
      readValue? fuel d (t ++ rest) = some (v, rest)
  | .items vs, t => ∀ fuel rest, 2 * t.length + 1 ≤ fuel →
      readItems? fuel d (t ++ rest) = some (vs, rest)
  | .pairs ps, t => ∀ fuel rest es es', build? (linesOf ps) es = some es' →
      2 * t.length + 1 ≤ fuel → readPairs? fuel d es (t ++ rest) = some (es', rest)

/-- **Every spelling of a value is read**, and everything inside brackets and braces. -/
theorem reads_of_spelled {ph : Phrase} (h : Spelled true d ph t) : Reads d ph t := by
  induction h with
  | string h =>
    intro fuel rest hrest hfuel
    have hread := readString?_of_spelled h (hrest.noneAhead (by decide))
    obtain ⟨c, t', rfl, hc⟩ := h.exists_cons
    obtain ⟨fuel, rfl⟩ : ∃ m, fuel = m + 1 := ⟨fuel - 1, by simp at hfuel; omega⟩
    rw [List.cons_append] at hread ⊢
    rw [readValue?_quote hc, hread]
    rfl
  | yes =>
    intro fuel rest hrest hfuel
    obtain ⟨fuel, rfl⟩ : ∃ m, fuel = m + 1 := ⟨fuel - 1, by simp at hfuel; omega⟩
    rfl
  | no =>
    intro fuel rest hrest hfuel
    obtain ⟨fuel, rfl⟩ : ∃ m, fuel = m + 1 := ⟨fuel - 1, by simp at hfuel; omega⟩
    rfl
  | number h =>
    intro fuel rest hrest hfuel
    have hread := readNumber?_of_spelled h hrest
    obtain ⟨c, t', rfl, hc⟩ := h.exists_cons
    obtain ⟨fuel, rfl⟩ : ∃ m, fuel = m + 1 := ⟨fuel - 1, by simp at hfuel; omega⟩
    rw [List.cons_append, readValue?_number hc]
    exact hread
  | moment h =>
    intro fuel rest hrest hfuel
    have hread := readNumber?_of_moment h hrest
    obtain ⟨c, t', rfl, hc⟩ := h.exists_cons
    obtain ⟨fuel, rfl⟩ : ∃ m, fuel = m + 1 := ⟨fuel - 1, by simp at hfuel; omega⟩
    rw [List.cons_append, readValue?_number hc]
    exact hread
  | array hd h ih =>
    intro fuel rest hrest hfuel
    obtain ⟨fuel, rfl⟩ : ∃ m, fuel = m + 1 := ⟨fuel - 1, by simp at hfuel; omega⟩
    rw [List.cons_append, readValue?, if_neg (Nat.not_le.mpr (hd rfl)),
      ih fuel rest (by simp at hfuel; omega)]
    rfl
  | emptyInline hd hg =>
    intro fuel rest hrest hfuel
    obtain ⟨fuel, rfl⟩ : ∃ m, fuel = m + 1 := ⟨fuel - 1, by simp at hfuel; omega⟩
    simp only [List.append_assoc, List.cons_append, List.nil_append]
    rw [readValue?, if_neg (Nat.not_le.mpr (hd rfl)), skipGap_append hg (noneAhead_cons rfl)]
    rfl
  | inline hd h honce ih =>
    intro fuel rest hrest hfuel
    obtain ⟨fuel, rfl⟩ : ∃ m, fuel = m + 1 := ⟨fuel - 1, by simp at hfuel; omega⟩
    have hread := ih fuel rest [] _ (h.build?_eq honce) (by simp at hfuel; omega)
    rw [List.cons_append, readValue?_brace (hd rfl) h, hread]
    rfl
  | noItems hf =>
    intro fuel rest hfuel
    obtain ⟨fuel, rfl⟩ : ∃ m, fuel = m + 1 := ⟨fuel - 1, by simp at hfuel; omega⟩
    simp only [List.append_assoc, List.cons_append, List.nil_append]
    rw [readItems?, skipFiller_length hf (noneAhead_cons rfl)]
    rfl
  | lastItem hf h hf' ih =>
    intro fuel rest hfuel
    obtain ⟨fuel, rfl⟩ : ∃ m, fuel = m + 1 := ⟨fuel - 1, by simp at hfuel; omega⟩
    simp only [List.append_assoc, List.cons_append, List.nil_append]
    rw [readItems?_value hf h hf' rfl]
    · rfl
    · exact ih fuel _ (hf'.closes (Closes.cons (c := ']') (by decide) rest))
        (by simp at hfuel; omega)
  | item hf h hf' hs ih ihs =>
    intro fuel rest hfuel
    obtain ⟨fuel, rfl⟩ : ∃ m, fuel = m + 1 := ⟨fuel - 1, by simp at hfuel; omega⟩
    simp only [List.append_assoc, List.cons_append]
    rw [readItems?_value hf h hf' rfl]
    · simp [ihs fuel rest (by simp at hfuel; omega)]
    · exact ih fuel _ (hf'.closes (Closes.cons (c := ',') (by decide) _))
        (by simp at hfuel; omega)
  | lastPair hk hg h hg' ih =>
    intro fuel rest es es' hbuild hfuel
    obtain ⟨fuel, rfl⟩ : ∃ m, fuel = m + 1 := ⟨fuel - 1, by simp at hfuel; omega⟩
    have hread := ih fuel _ ((Closes.cons (c := '}') (by decide) rest).gap hg')
      (by simp at hfuel; omega)
    obtain ⟨es₁, hadd, hrest⟩ := Option.bind_eq_some_iff.mp hbuild
    obtain rfl := Option.some.inj hrest
    simp only [List.append_assoc, List.cons_append, List.nil_append]
    rw [readPairs?_pair hk hg h hg' rfl hread hadd]
    rfl
  | @pair _ _ _ _ _ _ _ _ ts hk hg h hg' hs ih ihs =>
    intro fuel rest es es' hbuild hfuel
    obtain ⟨fuel, rfl⟩ : ∃ m, fuel = m + 1 := ⟨fuel - 1, by simp at hfuel; omega⟩
    have hread := ih fuel _ ((Closes.cons (c := ',') (by decide) (ts ++ rest)).gap hg')
      (by simp at hfuel; omega)
    obtain ⟨es₁, hadd, hbuild⟩ := Option.bind_eq_some_iff.mp hbuild
    simp only [List.append_assoc, List.cons_append]
    rw [readPairs?_pair hk hg h hg' rfl hread hadd]
    exact ihs fuel rest es₁ es' hbuild (by simp at hfuel; omega)

/-! ### Lines -/

/-- The end of a line is taken off, if there is nothing before it but blanks and a comment. -/
theorem takeLineEnd?_of_trail (he : Trail e) (hn : Newline n) (rest : List Char) :
    takeLineEnd? (e ++ (n ++ rest)) = some rest := by
  have hend : ∀ {cs : List Char}, skipComment (skipGap cs) = n ++ rest →
      takeLineEnd? cs = some rest := by
    intro cs h
    rw [takeLineEnd?, h]
    cases hn <;> rfl
  cases he with
  | blank hg =>
    refine hend ?_
    rw [skipGap_append hg (hn.noneAhead rfl rfl rest)]
    unfold skipComment
    split
    · next heq => cases hn <;> cases (List.cons.inj heq).1
    · rfl
  | comment hg htext =>
    refine hend ?_
    rw [List.append_assoc, List.cons_append, skipGap_append hg (noneAhead_cons rfl)]
    exact (takeWhile_append_of_noneAhead htext (hn.noneAhead rfl rfl rest)).2

/-- So is the end of the text. -/
theorem takeLineEnd?_of_trail_end (he : Trail e) : takeLineEnd? e = some [] := by
  cases he with
  | blank hg =>
    have hskip := skipGap_append hg noneAhead_nil
    rw [List.append_nil] at hskip
    rw [takeLineEnd?, hskip]
    rfl
  | comment hg htext =>
    have hdrop := (takeWhile_append_of_noneAhead htext noneAhead_nil).2
    rw [List.append_nil] at hdrop
    rw [takeLineEnd?, skipGap_append hg (noneAhead_cons rfl), skipComment, hdrop]

theorem takeLineEnd?_skipGap (cs : List Char) : takeLineEnd? (skipGap cs) = takeLineEnd? cs := by
  rw [takeLineEnd?, takeLineEnd?, skipGap_skipGap]

/-- A line that begins with a key does not end there. -/
theorem takeLineEnd?_key (hc : beginsKey c = true) (cs : List Char) :
    takeLineEnd? (c :: cs) = none := by
  obtain ⟨hgap, hcomment, hfeed, hreturn, -⟩ := beginsKey_spec hc
  have hskip : skipComment (c :: cs) = c :: cs := by
    rw [skipComment]
    exact fun rest heq => hcomment (List.cons.inj heq).1
  rw [takeLineEnd?, skipGap_of_noneAhead (noneAhead_cons hgap), hskip]
  refine takeNewline?_of_noneAhead (noneAhead_cons ?_)
  simp [isFiller, hgap, hcomment, hfeed, hreturn]

/-- What a line says becomes of the tables; the next line belongs to its header. -/
def after (u' : Path) (rest : List Char) (r : Option Entries) : Option (Progress × List Char) :=
  r.map fun es => ({ entries := es, header := u' }, rest)

theorem readHeader?_of_spelled (double : Bool) (hk : KeySpelled true path k)
    (htail : takeLineEnd? tail = some rest) :
    readHeader? double { entries := es, header := u }
        (k ++ ((if double then [']', ']'] else [']']) ++ tail)) =
      after path rest (if double then openElement? path es else openTable? path es) := by
  cases double with
  | false =>
    have hkey : readKey? (k ++ ']' :: tail) = some (path, ']' :: tail) :=
      readKey?_of_spelled hk (.inr rfl)
    cases hopen : openTable? path es <;>
      simp [readHeader?, hkey, takeBrackets?, htail, hopen, after]
  | true =>
    have hkey : readKey? (k ++ ']' :: ']' :: tail) = some (path, ']' :: ']' :: tail) :=
      readKey?_of_spelled hk (.inr rfl)
    cases hopen : openElement? path es <;>
      simp [readHeader?, hkey, takeBrackets?, htail, hopen, after]

theorem readPair?_of_spelled (hk : KeySpelled true path k) (hg : Gap g)
    (h : Spelled true 0 (.value v) t) (hcloses : Closes tail)
    (htail : takeLineEnd? tail = some rest) :
    readPair? { entries := es, header := u } (k ++ '=' :: (g ++ (t ++ tail))) =
      after u rest (within? u (addKey? path v) es) := by
  have hkey : readKey? (k ++ '=' :: (g ++ (t ++ tail))) = some (path, '=' :: (g ++ (t ++ tail))) :=
    readKey?_of_spelled hk (.inl rfl)
  have hskip : skipGap (g ++ (t ++ tail)) = t ++ tail := by
    obtain ⟨c, t', rfl, hc⟩ := h.exists_cons
    exact skipGap_append hg (noneAhead_cons (beginsValue_spec hc).1)
  have hvalue : readValue? (2 * (g ++ (t ++ tail)).length + 2) 0 (t ++ tail) = some (v, tail) :=
    reads_of_spelled h _ tail hcloses (by simp only [List.length_append]; omega)
  rw [readPair?, hkey]
  simp only [Option.bind_eq_bind, Option.bind_some, hskip, hvalue, htail]
  cases within? u (addKey? path v) es <;> rfl

theorem readPair?_skipGap (p : Progress) (cs : List Char) :
    readPair? p (skipGap cs) = readPair? p cs := by
  rw [readPair?, readPair?, readKey?_skipGap]

/-- A line that begins with a key is read as a key and its value. -/
theorem readLine?_key {bounded : Bool} (hk : KeySpelled bounded path k) (p : Progress)
    (cs : List Char) : readLine? p (k ++ cs) = readPair? p (k ++ cs) := by
  obtain ⟨c, cs', hskip, hc⟩ := hk.exists_skipGap cs
  have hbracket : c ≠ '[' := (beginsKey_spec hc).2.2.2.2.1
  rw [← readPair?_skipGap, hskip]
  unfold readLine?
  rw [hskip]
  split
  · next heq => cases heq
  · next heq => exact absurd (List.cons.inj heq).1 hbracket
  · next heq => exact absurd (List.cons.inj heq).1 hbracket
  · rw [takeLineEnd?_key hc]

theorem Closes.skipGap (h : Closes tail) : ∀ c ∈ (skipGap tail).head?, c ∈ closers := by
  obtain ⟨g, e, rfl, hg, he⟩ := h
  have hgap : NoneAhead isGap e := by
    intro c hc
    have hall : closers.all (isGap · == false) = true := by decide
    exact beq_iff_eq.mp (List.all_eq_true.mp hall c (he c hc))
  rwa [skipGap_append hg hgap]

/-- **Every spelling of a line is read**, if it ends as a line does. -/
theorem readLine?_of_spelled (h : LineSpelled true u u' ss t) (hcloses : Closes tail)
    (htail : takeLineEnd? tail = some rest) :
    readLine? { entries := es, header := u } (t ++ tail) = after u' rest (build? ss es) := by
  have hone : ∀ {s : Statement}, build? [s] es = s.apply? es := by
    intro s
    rw [build?, List.foldlM_cons]
    cases s.apply? es <;> rfl
  cases h with
  | nothing =>
    have hnext := hcloses.skipGap
    rw [← takeLineEnd?_skipGap] at htail
    rw [List.nil_append]
    unfold readLine?
    split
    · next heq =>
      rw [heq] at htail
      obtain rfl := Option.some.inj htail
      rfl
    · next heq =>
      rw [heq] at hnext
      exact absurd (hnext '[' rfl) (by decide)
    · next heq =>
      rw [heq] at hnext
      exact absurd (hnext '[' rfl) (by decide)
    · rw [htail]
      rfl
  | header hg hk =>
    have hsingle : NoneAhead (· == '[') (_ ++ ']' :: tail) :=
      (hk.noneAhead rfl rfl fun c hc => beq_false_of_ne (beginsKey_spec hc).2.2.2.2.1).append
        (noneAhead_cons rfl)
    simp only [List.append_assoc, List.cons_append, List.nil_append]
    unfold readLine?
    rw [skipGap_append hg (noneAhead_cons rfl), hone]
    split
    · next heq => cases heq
    · next heq =>
      rw [(List.cons.inj heq).2] at hsingle
      cases hsingle '[' rfl
    · next heq =>
      rw [← (List.cons.inj heq).2]
      exact readHeader?_of_spelled false hk htail
    · next hnot => exact absurd rfl (hnot _)
  | element hg hk =>
    simp only [List.append_assoc, List.cons_append, List.nil_append]
    unfold readLine?
    rw [skipGap_append hg (noneAhead_cons rfl), hone]
    exact readHeader?_of_spelled true hk htail
  | pair hk hg h =>
    simp only [List.append_assoc, List.cons_append]
    rw [readLine?_key hk, hone]
    exact readPair?_of_spelled hk hg h hcloses htail

/-! ### Documents -/

theorem readLines?_nil (p : Progress) : readLines? fuel p [] = some p.entries := by
  cases fuel <;> rfl

theorem readLines?_of_ne_nil {p : Progress} (hne : cs ≠ []) :
    readLines? (fuel + 1) p cs = (readLine? p cs).bind fun (p, rest) => readLines? fuel p rest := by
  obtain ⟨c, cs, rfl⟩ := List.exists_cons_of_ne_nil hne
  rfl

theorem build?_append (ss ss' : List Statement) (es : Entries) :
    build? (ss ++ ss') es = (build? ss es).bind (build? ss') := by
  rw [build?, List.foldlM_append]
  rfl

/-- A line that says something is not empty. -/
theorem LineSpelled.eq_nil {bounded : Bool} (h : LineSpelled bounded u u' ss []) : ss = [] := by
  generalize ht : ([] : List Char) = t at h
  cases h with
  | nothing => rfl
  | header | element | pair => simp at ht

/-- **Every spelling of lines is read as the tables that they make.** -/
theorem readLines?_of_spelled (h : DocumentSpelled true u ss t) (hfuel : t.length ≤ fuel) :
    readLines? fuel { entries := es, header := u } t = build? ss es := by
  induction h generalizing es fuel with
  | nil => exact readLines?_nil _
  | @last u u' ss t e h he =>
    by_cases hne : t ++ e = []
    · rw [hne, readLines?_nil]
      rw [(List.append_eq_nil_iff.mp hne).1] at h
      rw [h.eq_nil]
      rfl
    · obtain ⟨fuel, rfl⟩ : ∃ m, fuel = m + 1 :=
        ⟨fuel - 1, by have := List.length_pos_iff.mpr hne; omega⟩
      have hcloses : Closes e := by
        have hend : Closes (e ++ []) := he.closes closes_nil
        rwa [List.append_nil] at hend
      rw [readLines?_of_ne_nil hne, readLine?_of_spelled h hcloses (takeLineEnd?_of_trail_end he)]
      cases build? ss es with
      | none => rfl
      | some es' => exact readLines?_nil _
  | @line u u' ss ss' t e n ts h he hn hs ih =>
    have hlong := hn.length_pos
    simp only [List.length_append] at hfuel
    obtain ⟨fuel, rfl⟩ : ∃ m, fuel = m + 1 := ⟨fuel - 1, by omega⟩
    have hne : t ++ (e ++ (n ++ ts)) ≠ [] := by
      intro hnil
      have hlength := congrArg List.length hnil
      simp only [List.length_append, List.length_nil] at hlength
      omega
    rw [readLines?_of_ne_nil hne, readLine?_of_spelled h (he.closes (hn.closes ts))
      (takeLineEnd?_of_trail he hn ts), build?_append]
    cases build? ss es with
    | none => rfl
    | some es' => exact ih (by omega)

/-- A document does not begin with a byte order mark. -/
theorem DocumentSpelled.noneAhead {bounded : Bool} (h : DocumentSpelled bounded u ss t) :
    NoneAhead (· == '\ufeff') t := by
  have hline : ∀ {u u' : Path} {ss : List Statement} {t : List Char},
      LineSpelled bounded u u' ss t → NoneAhead (· == '\ufeff') t := by
    intro u u' ss t h
    have hkey : ∀ {path : Path} {k : List Char}, KeySpelled bounded path k →
        NoneAhead (· == '\ufeff') k := fun hk =>
      hk.noneAhead rfl rfl fun c hc => beq_false_of_ne (beginsKey_spec hc).2.2.2.2.2.2
    cases h with
    | nothing => exact noneAhead_nil
    | header hg | element hg => exact (hg.noneAhead rfl rfl).append (noneAhead_cons rfl)
    | pair hk => exact (hkey hk).append (noneAhead_cons rfl)
  have htrail : ∀ {e : List Char}, Trail e → NoneAhead (· == '\ufeff') e := by
    intro e he
    cases he with
    | blank hg => exact hg.noneAhead rfl rfl
    | comment hg => exact (hg.noneAhead rfl rfl).append (noneAhead_cons rfl)
  cases h with
  | nil => exact noneAhead_nil
  | last h he => exact (hline h).append (htrail he)
  | line h he hn => exact (hline h).append ((htrail he).append (hn.noneAhead rfl rfl _))

/-- Keys belong to the header before them. -/
theorem LineSpelled.follows {bounded : Bool} {ss' : List Statement}
    (h : LineSpelled bounded u u' ss t) (hs : Follows u' ss') : Follows u (ss ++ ss') := by
  cases h with
  | nothing | header | element => exact hs
  | pair hk hg h => exact ⟨rfl, h.kind_eq, hs⟩

theorem DocumentSpelled.follows {bounded : Bool} (h : DocumentSpelled bounded u ss t) :
    Follows u ss := by
  induction h with
  | nil => trivial
  | @last u u' ss t e h he =>
    have hend : Follows u' [] := trivial
    simpa using h.follows hend
  | line h he hn hs ih => exact h.follows ih

/-- **Every document that keeps within the bounds is read as the tables that its lines make.** -/
theorem parse?_of_spelled (h : DocumentSpelled true [] ss t) : parse? t = build? ss [] := by
  have hmark := h.noneAhead
  rw [parse?]
  · exact readLines?_of_spelled h (Nat.le_succ _)
  · rintro rest rfl
    cases hmark '\ufeff' rfl

/-- **A document that defines each name once is read**, as tables that hold what its lines define. -/
theorem exists_parse? (h : DocumentSpelled true [] ss t) (honce : NamesOnce [] ss) :
    ∃ es, parse? t = some es ∧ Faithful es ss.reverse := by
  obtain ⟨es, hes, hf⟩ := exists_build? faithful_nil opened_nil h.follows honce
  rw [List.append_nil] at hf
  exact ⟨es, (parse?_of_spelled h).trans hes, hf⟩

end LoadRig.Toml
