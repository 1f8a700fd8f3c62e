import LoadRig.Proofs.Net.Ipv6
import LoadRig.Proofs.Text.Digits
import LoadRig.Proofs.Url.Escape
import LoadRig.Url.Host
/-!
# The text of a host

A host that was read is written in the one form that it has: a name in ASCII, four decimal numbers,
or eight groups between brackets. Read again, the text is the same host.

How names beyond ASCII are brought into ASCII is not decided here. All that is used of it is that it
leaves alone what it has made, that this holds none of the characters that may not stand in a name,
and that an address of four numbers is written as it is.

## Main definitions

* `LoadRig.Url.Naming.Lawful` — what is used of a way to bring names into ASCII.
* `LoadRig.Url.Host.Sound` — a host as it is read.

## Main results

* `LoadRig.Url.Naming.lawful_ascii` — names that are ASCII already.
* `LoadRig.Url.Host.sound_of_parse` — what is read is sound.
* `LoadRig.Url.Host.parse_text` — the text of a host is read back.
-/

namespace LoadRig.Url

open LoadRig.Text

/-! ### Names -/

/-- What is used of a way to bring names into ASCII. -/
structure Naming.Lawful (naming : Naming) : Prop where
  /-- A name holds no character that may not stand in one. -/
  allowed : ∀ bytes s, naming bytes = some s → ∀ c ∈ s, isForbidden c = false
  /-- The ASCII form of a name is a name, and is its own ASCII form. -/
  again : ∀ bytes s, naming bytes = some s → naming (utf8 s) = some s
  /-- So is the text of an address of four numbers. -/
  numbers : ∀ a : Net.Ipv4, naming (utf8 a.text) = some a.text

/-- A character that may stand in a name is one of ASCII that shows, and no mark of an address. -/
theorem of_not_isForbidden {c : Char} (h : isForbidden c = false) :
    0x20 < c.toNat ∧ c.toNat < 0x7F ∧ c ≠ '%' ∧ c ≠ '#' ∧ c ≠ '/' ∧ c ≠ ':' ∧ c ≠ '?' ∧ c ≠ '@' ∧
      c ≠ '[' ∧ c ≠ '\\' := by
  simp only [isForbidden, Bool.or_eq_false_iff, decide_eq_false_iff_not, Nat.not_le] at h
  simp_all

/-- The bytes of a text of ASCII. -/
theorem utf8_of_ascii {s : List Char} (h : ∀ c ∈ s, c.toNat < 0x80) :
    utf8 s = s.map fun c => UInt8.ofNat c.toNat := by
  induction s with
  | nil => rfl
  | cons c s ih =>
    obtain ⟨hc, hs⟩ := List.forall_mem_cons.mp h
    have hone : c.val.toNat ≤ 127 := Nat.le_of_lt_succ hc
    rw [utf8, List.flatMap_cons, List.map_cons, String.utf8EncodeChar.eq_1, if_pos hone]
    exact congrArg (_ :: ·) (ih hs)

/-- A text of ASCII is read back from its bytes. -/
theorem asciiText?_utf8 {s : List Char} (h : ∀ c ∈ s, c.toNat < 0x80) :
    asciiText? (utf8 s) = some s := by
  have hbyte : ∀ c ∈ s, (UInt8.ofNat c.toNat).toNat = c.toNat := fun c hc =>
    Nat.mod_eq_of_lt (Nat.lt_trans (h c hc) (by decide))
  rw [asciiText?, utf8_of_ascii h, if_pos]
  · rw [List.map_map]
    refine congrArg some ((List.map_congr_left fun c hc => ?_).trans (List.map_id s))
    simp [hbyte c hc]
  · rw [List.all_map, List.all_eq_true]
    intro c hc
    have hsmall := h c hc
    have hval := hbyte c hc
    simp only [Function.comp_apply, decide_eq_true_eq, UInt8.lt_iff_toNat_lt, hval]
    exact hsmall

theorem toLower_toLower_of_ascii {c : Char} (hc : c.toNat < 0x80) :
    c.toLower.toLower = c.toLower := by
  have htable : ∀ n < 128, (Char.ofNat n).toLower.toLower = (Char.ofNat n).toLower := by decide
  have hn := htable c.toNat hc
  rwa [Char.ofNat_toNat] at hn

/-- Digits and points are written in one way, and may stand in a name. -/
theorem plain_of_isDigit {c : Char} (h : c.isDigit = true ∨ c = '.') :
    c.toLower = c ∧ isForbidden c = false := by
  have htable : ∀ n < 128, (Char.ofNat n).isDigit = true ∨ Char.ofNat n = '.' →
      (Char.ofNat n).toLower = Char.ofNat n ∧ isForbidden (Char.ofNat n) = false := by decide
  have hascii : c.toNat < 0x80 := by
    rcases h with h | rfl
    · exact Nat.lt_of_le_of_lt (Char.isDigit_iff_toNat.mp h).2 (by decide)
    · decide
  have hn := htable c.toNat hascii
  rw [Char.ofNat_toNat] at hn
  exact hn h

theorem lt_of_mem_asciiText? {bytes : List UInt8} {s : List Char} (h : asciiText? bytes = some s) :
    ∀ c ∈ s, c.toNat < 0x80 := by
  obtain ⟨hall, hs⟩ := Option.ite_none_right_eq_some.mp h
  rw [← Option.some.inj hs]
  intro c hc
  obtain ⟨b, hb, rfl⟩ := List.mem_map.mp hc
  have hsmall : b < 0x80 := of_decide_eq_true (List.all_eq_true.mp hall b hb)
  have hnat : ∀ n < 128, (Char.ofNat n).toNat < 0x80 := by decide
  exact hnat b.toNat (UInt8.lt_iff_toNat_lt.mp hsmall)

theorem Naming.ascii_eq_some_iff {bytes : List UInt8} {s : List Char} :
    Naming.ascii bytes = some s ↔
      ∃ t, asciiText? bytes = some t ∧ t.map Char.toLower = s ∧ ∀ c ∈ s, isForbidden c = false := by
  rw [ascii]
  cases asciiText? bytes with
  | none => simp
  | some t =>
    simp only [Option.bind_eq_bind, Option.bind_some, Option.some.injEq, exists_eq_left',
      Option.ite_none_left_eq_some]
    simp only [List.any_eq_true, not_exists, not_and, Bool.not_eq_true]
    constructor
    · rintro ⟨hfree, rfl⟩
      exact ⟨rfl, hfree⟩
    · rintro ⟨rfl, hfree⟩
      exact ⟨hfree, rfl⟩

/-- A name of ASCII in small letters, without marks, is its own ASCII form. -/
theorem Naming.ascii_utf8 {s : List Char}
    (h : ∀ c ∈ s, c.toLower = c ∧ isForbidden c = false) : Naming.ascii (utf8 s) = some s := by
  refine ascii_eq_some_iff.mpr ⟨s, asciiText?_utf8 fun c hc => ?_, ?_, fun c hc => (h c hc).2⟩
  · exact Nat.lt_succ_of_lt (of_not_isForbidden (h c hc).2).2.1
  · exact (List.map_congr_left fun c hc => (h c hc).1).trans (List.map_id s)

/-- What the text of an address of four numbers is made of. -/
theorem isDigit_of_mem_text {a : Net.Ipv4} {c : Char} (h : c ∈ a.text) :
    c.isDigit = true ∨ c = '.' := by
  rcases mem_joined h with h | ⟨f, hf, hc⟩
  · exact .inr h
  · left
    simp only [List.mem_cons, List.not_mem_nil, or_false] at hf
    rcases hf with rfl | rfl | rfl | rfl <;> exact isDigit_of_mem_digits hc

/-- **Names that are ASCII already** are brought into ASCII lawfully. -/
theorem Naming.lawful_ascii : Naming.ascii.Lawful where
  allowed := by
    intro bytes s h
    obtain ⟨t, -, -, hfree⟩ := ascii_eq_some_iff.mp h
    exact hfree
  again := by
    intro bytes s h
    obtain ⟨t, ht, rfl, hfree⟩ := ascii_eq_some_iff.mp h
    refine ascii_utf8 fun c hc => ⟨?_, hfree c hc⟩
    obtain ⟨x, hx, rfl⟩ := List.mem_map.mp hc
    exact toLower_toLower_of_ascii (lt_of_mem_asciiText? ht x hx)
  numbers := by
    intro a
    exact ascii_utf8 fun c hc => plain_of_isDigit (isDigit_of_mem_text hc)

/-! ### Hosts -/

namespace Host

/-- A host as it is read. A name is its own ASCII form and is not taken for a number. -/
def Sound (naming : Naming) : Host → Prop
  | name s => naming (utf8 s) = some s ∧ s ≠ [] ∧ endsInNumber s = false ∧
      ∀ c ∈ s, isForbidden c = false
  | _ => True

variable {naming : Naming} {cs : List Char} {h : Host}

theorem parse_of_head {s : List Char} (hhead : cs.head? ≠ some '[')
    (hs : naming (unescape cs) = some s) : parse cs naming = ofName s := by
  rw [parse, hs]
  rintro rest rfl
  exact hhead rfl

theorem sound_of_bracketed (hb : bracketed cs = .ok h) : h.Sound naming := by
  unfold bracketed at hb
  split at hb
  · split at hb
    · cases hb
      trivial
    · cases hb
  · cases hb

theorem sound_of_ofName {s : List Char} (hs : naming (utf8 s) = some s)
    (hfree : ∀ c ∈ s, isForbidden c = false) (h' : ofName s = .ok h) : h.Sound naming := by
  unfold ofName at h'
  split at h'
  · cases h'
  · next hne =>
    split at h'
    · split at h'
      · cases h'
        trivial
      · cases h'
    · next hnumber =>
      cases h'
      exact ⟨hs, by simpa using hne, Bool.not_eq_true _ ▸ hnumber, hfree⟩

/-- **What is read is sound.** -/
theorem sound_of_parse (hn : naming.Lawful) (hparse : parse cs naming = .ok h) :
    h.Sound naming := by
  unfold parse at hparse
  split at hparse
  · exact sound_of_bracketed hparse
  · split at hparse
    · cases hparse
    · next s hs => exact sound_of_ofName (hn.again _ s hs) (hn.allowed _ s hs) hparse

/-! ### Four numbers -/

theorem hexValue?_digitChar : ∀ d < 10, hexValue? (Nat.digitChar d) = some d := by decide

theorem readBase?_append_singleton {cs : List Char} {n d : Nat} (hcs : readBase? 10 cs = some n)
    (hd : d < 10) : readBase? 10 (cs ++ [Nat.digitChar d]) = some (10 * n + d) := by
  rw [readBase?] at hcs
  rw [readBase?, List.foldlM_append, hcs]
  simp [hexValue?_digitChar d hd, hd]

theorem readBase?_digits (n : Nat) : readBase? 10 (digits n) = some n := by
  induction n using digits.induct with
  | case1 n hn =>
    rw [digits_of_lt hn]
    have h0 : readBase? 10 [] = some 0 := rfl
    simpa using readBase?_append_singleton h0 hn
  | case2 n hn ih =>
    rw [digits_of_ge (Nat.not_lt.mp hn)]
    rw [readBase?_append_singleton ih (Nat.mod_lt n (by decide)), Nat.div_add_mod]

/-- A decimal number is read as one, because it does not begin with zero. -/
theorem looseNumber?_digits (n : Nat) : looseNumber? (digits n) = some n := by
  rcases Nat.eq_zero_or_pos n with rfl | hn
  · rw [digits_of_lt (by decide)]
    rfl
  · have hhead := head?_digits hn
    have hread := readBase?_digits n
    obtain ⟨c, cs, hcs⟩ := List.exists_cons_of_ne_nil (digits_ne_nil n)
    rw [hcs] at hhead hread ⊢
    have hc : c ≠ '0' := fun heq => hhead (congrArg some heq)
    unfold looseNumber?
    split <;> simp_all

theorem parts_text (a : Net.Ipv4) : parts a.text =
    [digits a.first.val, digits a.second.val, digits a.third.val, digits a.fourth.val] := by
  have hfields : fields (· == '.') a.text =
      [digits a.first.val, digits a.second.val, digits a.third.val, digits a.fourth.val] := by
    refine fields_joined rfl (List.cons_ne_nil _ _) fun f hf c hc => ?_
    have hdigit : c.isDigit = true := by
      simp only [List.mem_cons, List.not_mem_nil, or_false] at hf
      rcases hf with rfl | rfl | rfl | rfl <;> exact isDigit_of_mem_digits hc
    refine beq_eq_false_iff_ne.mpr ?_
    rintro rfl
    cases hdigit
  rw [parts, hfields]
  simp [digits_ne_nil]

theorem endsInNumber_text (a : Net.Ipv4) : endsInNumber a.text = true := by
  rw [endsInNumber, parts_text]
  simp [digits_ne_nil, all_isDigit_digits]

/-- An address is made of its four numbers. -/
theorem ofNat_eq (a : Net.Ipv4) : Net.Ipv4.ofNat
    ((256 * (256 * a.first.val + a.second.val) + a.third.val) * 256 + a.fourth.val) = a := by
  rcases a with ⟨⟨a, ha⟩, ⟨b, hb⟩, ⟨c, hc⟩, ⟨d, hd⟩⟩
  simp only [Net.Ipv4.ofNat, Net.Ipv4.octetOf, Net.Ipv4.mk.injEq, Fin.mk.injEq]
  omega

theorem numbersText_ne_nil (a : Net.Ipv4) : a.text ≠ [] := by
  intro heq
  have hnumber := endsInNumber_text a
  rw [heq] at hnumber
  cases hnumber

theorem looseIpv4?_text (a : Net.Ipv4) : looseIpv4? a.text = some a := by
  have hnumbers : (parts a.text).mapM looseNumber? =
      some [a.first.val, a.second.val, a.third.val, a.fourth.val] := by
    simp [parts_text, looseNumber?_digits]
  have hsmall : ∀ x : Fin 256, ¬ 255 < x.val := fun x => Nat.not_lt.mpr (Nat.le_of_lt_succ x.isLt)
  have hlast : ¬ 256 ≤ a.fourth.val := Nat.not_le.mpr a.fourth.isLt
  rw [looseIpv4?, hnumbers]
  simp [hsmall, hlast, ofNat_eq]

/-! ### The text of a host -/

/-- A text without percent signs that does not begin with a bracket is taken for a name. -/
theorem parse_of_free {s : List Char} (hfree : ∀ c ∈ s, isForbidden c = false)
    (hself : naming (utf8 s) = some s) : parse s naming = ofName s := by
  have hhead : s.head? ≠ some '[' := fun heq => by
    cases hfree _ (List.mem_of_head? heq)
  have hpercent : '%' ∉ s := fun hmem => by
    cases hfree _ hmem
  exact parse_of_head hhead (by rw [unescape_eq_utf8 hpercent, hself])

/-- **The text of a host is read back.** -/
theorem parse_text (hn : naming.Lawful) (hs : h.Sound naming) : parse h.text naming = .ok h := by
  cases h with
  | name s =>
    obtain ⟨hself, hne, hnumber, hfree⟩ := hs
    show parse s naming = _
    rw [parse_of_free hfree hself, ofName, hnumber]
    simp [hne]
  | ipv4 a =>
    have hfree : ∀ c ∈ a.text, isForbidden c = false := fun c hc =>
      (plain_of_isDigit (isDigit_of_mem_text hc)).2
    show parse a.text naming = _
    rw [parse_of_free hfree (hn.numbers a), ofName, endsInNumber_text, looseIpv4?_text]
    simp [numbersText_ne_nil]
  | ipv6 a =>
    show bracketed (a.text ++ [']']) = _
    rw [bracketed, if_pos (by simp), List.dropLast_concat, Net.Ipv6.parse?_text]

/-- What the text of a host is made of. -/
theorem of_mem_text {c : Char} (hs : h.Sound naming) (hc : c ∈ h.text) :
    isForbidden c = false ∨ c = '[' ∨ c = ']' ∨ c = ':' ∨ ∃ d < 16, c = hexChar d := by
  cases h with
  | name s => exact .inl (hs.2.2.2 c hc)
  | ipv4 a => exact .inl (plain_of_isDigit (isDigit_of_mem_text hc)).2
  | ipv6 a =>
    right
    rcases List.mem_cons.mp hc with h | h
    · exact .inl h
    · rcases List.mem_append.mp h with h | h
      · exact .inr (.inr (Net.Ipv6.of_mem_text h))
      · exact .inr (.inl (List.mem_singleton.mp h))

theorem text_ne_nil (hs : h.Sound naming) : h.text ≠ [] := by
  cases h with
  | name s => exact hs.2.1
  | ipv4 a => exact numbersText_ne_nil a
  | ipv6 a => exact List.cons_ne_nil _ _

end Host

end LoadRig.Url
