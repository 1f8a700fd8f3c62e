import LoadRig.Proofs.Decimal.Overflow
import LoadRig.Proofs.Toml.Names
import LoadRig.Toml.Document
/-!
# How documents may be written

The grammar of TOML texts, as relations between what is meant and the characters that spell it. A
number, a string, a key and a line each have many spellings: digits may be set apart, a character may
stand for itself or be written as an escape, a string may go over several lines, blanks stand around
most signs and comments behind most lines. The relations say what all these spellings are, piece by
piece and without a word about how a text is read.

Two bounds are no part of the format: how deep values may be nested, with how long a key may be, and how
large a float may be. Whether they are kept is the first argument of the relations that they concern:
`Spelled false` is all that the format allows, and `Spelled true` what keeps within the bounds as well.

## Main definitions

* `LoadRig.Toml.StringSpelled`, `LoadRig.Toml.NumberSpelled`, `LoadRig.Toml.MomentSpelled` — values that
  hold no others.
* `LoadRig.Toml.KeySpelled` — keys.
* `LoadRig.Toml.Spelled` — values, what is inside brackets, and what is inside braces.
* `LoadRig.Toml.DocumentSpelled` — lines that say something, and a whole text with them.
-/

namespace LoadRig.Toml

open LoadRig.Text

/-! ### Blanks, line ends and comments -/

/-- Blanks of a line, or none. -/
def Gap (cs : List Char) : Prop := ∀ c ∈ cs, isGap c = true

theorem isGap_iff {c : Char} : isGap c = true ↔ c = ' ' ∨ c = '\t' := by
  simp [isGap]

theorem gap_nil : Gap [] := fun _ hc => absurd hc List.not_mem_nil

theorem gap_space : Gap [' '] := by
  intro c hc
  obtain rfl := List.mem_singleton.mp hc
  rfl

/-- The end of a line. -/
inductive Newline : List Char → Prop
  | feed : Newline ['\n']
  | both : Newline ['\r', '\n']

/-- A text does not begin with the end of a line. -/
def NoNewline (cs : List Char) : Prop := ∀ n rest, Newline n → cs ≠ n ++ rest

/-- What may stand before the end of a line: blanks, and perhaps a comment. -/
inductive Trail : List Char → Prop
  | blank {g : List Char} (hg : Gap g) : Trail g
  | comment {g cs : List Char} (hg : Gap g) (h : ∀ c ∈ cs, isText c = true) : Trail (g ++ '#' :: cs)

/-- What may stand between the values of an array: lines with nothing but a comment, and blanks. -/
inductive Filler : List Char → Prop
  | gap {g : List Char} (hg : Gap g) : Filler g
  | line {t n f : List Char} (ht : Trail t) (hn : Newline n) (h : Filler f) : Filler (t ++ (n ++ f))

/-! ### Strings -/

/-- The number that digits of a base make. -/
def baseValue (base : Nat) (ds : List Char) : Nat :=
  ds.foldl (fun n c => base * n + (hexValue? c).getD 0) 0

/-- The letters of the short escapes, and what they stand for. -/
def shortEscapes : List (Char × Char) :=
  [('b', '\x08'), ('t', '\t'), ('n', '\n'), ('f', '\x0c'), ('r', '\r'), ('"', '"'), ('\\', '\\')]

/-- What stands behind the backslash of an escaped character. -/
inductive EscapeSpelled : Char → List Char → Prop
  | short {e c : Char} (h : (e, c) ∈ shortEscapes) : EscapeSpelled c [e]
  | four {ds : List Char} (hlength : ds.length = 4) (hds : ∀ d ∈ ds, isHex d = true)
      (hvalid : (baseValue 16 ds).isValidChar) :
      EscapeSpelled (Char.ofNat (baseValue 16 ds)) ('u' :: ds)
  | eight {ds : List Char} (hlength : ds.length = 8) (hds : ∀ d ∈ ds, isHex d = true)
      (hvalid : (baseValue 16 ds).isValidChar) :
      EscapeSpelled (Char.ofNat (baseValue 16 ds)) ('U' :: ds)

/-- What stands between double quotes. -/
inductive BasicSpelled : List Char → List Char → Prop
  | nil : BasicSpelled [] []
  | plain {c : Char} {s t : List Char} (hc : isText c = true) (hquote : c ≠ '"') (hback : c ≠ '\\')
      (h : BasicSpelled s t) : BasicSpelled (c :: s) (c :: t)
  | escape {c : Char} {e s t : List Char} (he : EscapeSpelled c e) (h : BasicSpelled s t) :
      BasicSpelled (c :: s) ('\\' :: (e ++ t))

/-- What stands between single quotes. -/
def LiteralText (s : List Char) : Prop := ∀ c ∈ s, isText c = true ∧ c ≠ '\''

/-- Blanks and line ends. -/
inductive Blanks : List Char → Prop
  | nil : Blanks []
  | gap {c : Char} {b : List Char} (hc : isGap c = true) (h : Blanks b) : Blanks (c :: b)
  | newline {n b : List Char} (hn : Newline n) (h : Blanks b) : Blanks (n ++ b)

/-- A string behind three quotes, up to the three that close it. One or two more may stand right before
those. A line end in it is a line feed; if `escapes` is set there are escapes, and a backslash takes a
line end away, with all blanks up to the next character. -/
inductive LongSpelled (escapes : Bool) (quote : Char) : List Char → List Char → Prop
  | close {k : Nat} (hk : k ≤ 2) :
      LongSpelled escapes quote (List.replicate k quote) (List.replicate (k + 3) quote)
  | plain {c : Char} {s t : List Char} (hc : isText c = true) (hquote : c ≠ quote)
      (hback : escapes = true → c ≠ '\\') (h : LongSpelled escapes quote s t) :
      LongSpelled escapes quote (c :: s) (c :: t)
  | quote {s t : List Char} (hq : ¬ [quote, quote] <+: t) (h : LongSpelled escapes quote s t) :
      LongSpelled escapes quote (quote :: s) (quote :: t)
  | newline {n s t : List Char} (hn : Newline n) (h : LongSpelled escapes quote s t) :
      LongSpelled escapes quote ('\n' :: s) (n ++ t)
  | escape {c : Char} {e s t : List Char} (hescapes : escapes = true) (he : EscapeSpelled c e)
      (h : LongSpelled escapes quote s t) : LongSpelled escapes quote (c :: s) ('\\' :: (e ++ t))
  | continued {g n b s t : List Char} (hescapes : escapes = true) (hg : Gap g) (hn : Newline n)
      (hb : Blanks b) (hgap : ∀ c ∈ t.head?, isGap c = false) (hnewline : NoNewline t)
      (h : LongSpelled escapes quote s t) :
      LongSpelled escapes quote s ('\\' :: (g ++ (n ++ (b ++ t))))

/-- A line end right behind three quotes does not count. -/
inductive FirstLine : List Char → List Char → Prop
  | newline {n t : List Char} (hn : Newline n) : FirstLine n t
  | absent {t : List Char} (h : NoNewline t) : FirstLine [] t

/-- The four sorts of string. -/
inductive StringSpelled : List Char → List Char → Prop
  | basic {s t : List Char} (h : BasicSpelled s t) : StringSpelled s ('"' :: (t ++ ['"']))
  | literal {s : List Char} (h : LiteralText s) : StringSpelled s ('\'' :: (s ++ ['\'']))
  | longBasic {n s t : List Char} (hn : FirstLine n t) (h : LongSpelled true '"' s t) :
      StringSpelled s ('"' :: '"' :: '"' :: (n ++ t))
  | longLiteral {n s t : List Char} (hn : FirstLine n t) (h : LongSpelled false '\'' s t) :
      StringSpelled s ('\'' :: '\'' :: '\'' :: (n ++ t))

/-! ### Numbers -/

/-- Digits, at least one, with single underscores between them. -/
inductive DigitsSpelled (isBase : Char → Bool) : List Char → List Char → Prop
  | one {c : Char} (hc : isBase c = true) : DigitsSpelled isBase [c] [c]
  | cons {c : Char} {ds t : List Char} (hc : isBase c = true) (h : DigitsSpelled isBase ds t) :
      DigitsSpelled isBase (c :: ds) (c :: t)
  | apart {c : Char} {ds t : List Char} (hc : isBase c = true) (h : DigitsSpelled isBase ds t) :
      DigitsSpelled isBase (c :: ds) (c :: '_' :: t)

/-- A sign, and whether it is a minus. -/
inductive SignSpelled : Bool → List Char → Prop
  | absent : SignSpelled false []
  | plus : SignSpelled false ['+']
  | minus : SignSpelled true ['-']

/-- The digits of a decimal number: a zero comes first only alone. -/
inductive DecimalSpelled : List Char → List Char → Prop
  | zero : DecimalSpelled ['0'] ['0']
  | digits {ds t : List Char} (h : DigitsSpelled Char.isDigit ds t) (hzero : ds.head? ≠ some '0') :
      DecimalSpelled ds t

/-- The fraction of a float: nothing, or a point and digits. -/
inductive FractionSpelled : Option (List Char) → List Char → Prop
  | absent : FractionSpelled none []
  | digits {ds t : List Char} (h : DigitsSpelled Char.isDigit ds t) :
      FractionSpelled (some ds) ('.' :: t)

/-- A number with its sign. -/
def signed (negative : Bool) (n : Nat) : Int := if negative then -(n : Int) else n

/-- The exponent of a float: nothing, or a letter and a number, which may begin with zero. -/
inductive ExponentSpelled : Option Int → List Char → Prop
  | absent : ExponentSpelled none []
  | digits {l : Char} {negative : Bool} {sign ds t : List Char} (hl : l = 'e' ∨ l = 'E')
      (hsign : SignSpelled negative sign) (h : DigitsSpelled Char.isDigit ds t) :
      ExponentSpelled (some (signed negative (digitsValue ds))) (l :: (sign ++ t))

/-- The other bases, each with its letter and its digits. -/
inductive Base : Char → Nat → (Char → Bool) → Prop
  | hexadecimal : Base 'x' 16 isHex
  | octal : Base 'o' 8 isOctal
  | binary : Base 'b' 2 isBinary

/-- Integers of sixty-four bits, and floats. -/
inductive NumberSpelled (bounded : Bool) : Item → List Char → Prop
  | decimal {negative : Bool} {sign ds t : List Char} (hsign : SignSpelled negative sign)
      (hds : DecimalSpelled ds t) (hlow : -(signedLimit : Int) ≤ signed negative (digitsValue ds))
      (hhigh : signed negative (digitsValue ds) < signedLimit) :
      NumberSpelled bounded (.integer (signed negative (digitsValue ds))) (sign ++ t)
  | based {letter : Char} {base : Nat} {isBase : Char → Bool} {ds t : List Char}
      (hbase : Base letter base isBase) (hds : DigitsSpelled isBase ds t)
      (hhigh : baseValue base ds < signedLimit) :
      NumberSpelled bounded (.integer (baseValue base ds)) ('0' :: letter :: t)
  | float {negative : Bool} {sign ds t f e : List Char} {fraction : Option (List Char)}
      {exponent : Option Int} (hsign : SignSpelled negative sign) (hds : DecimalSpelled ds t)
      (hfraction : FractionSpelled fraction f) (hexponent : ExponentSpelled exponent e)
      (hfloat : fraction.isSome ∨ exponent.isSome)
      (hbound : bounded = true → negative = false →
        ¬ Decimal.Overflows (digitsValue (ds ++ fraction.getD []))
          (exponent.getD 0 - (fraction.getD []).length)) :
      NumberSpelled bounded .float (sign ++ (t ++ (f ++ e)))
  | infinite {negative : Bool} {sign : List Char} (hsign : SignSpelled negative sign) :
      NumberSpelled bounded .float (sign ++ ['i', 'n', 'f'])
  | undefined {negative : Bool} {sign : List Char} (hsign : SignSpelled negative sign) :
      NumberSpelled bounded .float (sign ++ ['n', 'a', 'n'])

/-! ### Dates and times -/

/-- A field of `n` digits that make a number from `low` to `high`. -/
structure FieldSpelled (n low high v : Nat) (ds : List Char) : Prop where
  length : ds.length = n
  digits : ∀ d ∈ ds, d.isDigit = true
  value : digitsValue ds = v
  atLeast : low ≤ v
  atMost : v ≤ high

/-- A date of the calendar. -/
inductive DateSpelled : List Char → Prop
  | mk {y m d : Nat} {ys ms ds : List Char} (hy : FieldSpelled 4 0 9999 y ys)
      (hm : FieldSpelled 2 1 12 m ms) (hd : FieldSpelled 2 1 (Time.daysIn y m) d ds) :
      DateSpelled (ys ++ '-' :: (ms ++ '-' :: ds))

/-- Parts of a second: nothing, or a point and digits. -/
inductive PartsSpelled : List Char → Prop
  | absent : PartsSpelled []
  | digits {ds : List Char} (hne : ds ≠ []) (h : ∀ d ∈ ds, d.isDigit = true) : PartsSpelled ('.' :: ds)

/-- A time of day. -/
inductive TimeSpelled : List Char → Prop
  | mk {h m s : Nat} {hs ms ss f : List Char} (hh : FieldSpelled 2 0 23 h hs)
      (hm : FieldSpelled 2 0 59 m ms) (hsec : FieldSpelled 2 0 60 s ss) (hf : PartsSpelled f) :
      TimeSpelled (hs ++ ':' :: (ms ++ ':' :: (ss ++ f)))

/-- An offset from universal time, or none. -/
inductive OffsetSpelled : List Char → Prop
  | absent : OffsetSpelled []
  | universal {c : Char} (hc : c = 'Z' ∨ c = 'z') : OffsetSpelled [c]
  | hours {c : Char} {h m : Nat} {hs ms : List Char} (hc : c = '+' ∨ c = '-')
      (hh : FieldSpelled 2 0 23 h hs) (hm : FieldSpelled 2 0 59 m ms) :
      OffsetSpelled (c :: (hs ++ ':' :: ms))

/-- A date, a time, or both. -/
inductive MomentSpelled : List Char → Prop
  | date {d : List Char} (hd : DateSpelled d) : MomentSpelled d
  | time {t : List Char} (ht : TimeSpelled t) : MomentSpelled t
  | both {d t o : List Char} {c : Char} (hd : DateSpelled d) (hc : c = 'T' ∨ c = 't' ∨ c = ' ')
      (ht : TimeSpelled t) (ho : OffsetSpelled o) : MomentSpelled (d ++ c :: (t ++ o))

/-! ### Keys -/

/-- One part of a key. -/
inductive PartSpelled : List Char → List Char → Prop
  | bare {p : List Char} (hne : p ≠ []) (h : ∀ c ∈ p, isBare c = true) : PartSpelled p p
  | basic {s t : List Char} (h : BasicSpelled s t) : PartSpelled s ('"' :: (t ++ ['"']))
  | literal {s : List Char} (h : LiteralText s) : PartSpelled s ('\'' :: (s ++ ['\'']))

/-- The parts of a key with points between them, and blanks around each. -/
inductive PartsOfKey : Path → List Char → Prop
  | last {p g t g' : List Char} (hg : Gap g) (h : PartSpelled p t) (hg' : Gap g') :
      PartsOfKey [p] (g ++ (t ++ g'))
  | cons {p g t g' ts : List Char} {ps : Path} (hg : Gap g) (h : PartSpelled p t) (hg' : Gap g')
      (hs : PartsOfKey ps ts) : PartsOfKey (p :: ps) (g ++ (t ++ (g' ++ '.' :: ts)))

/-- A key. -/
structure KeySpelled (bounded : Bool) (path : Path) (k : List Char) : Prop where
  parts : PartsOfKey path k
  bound : bounded = true → path.length < tooDeep

/-- A name without quotes. -/
theorem KeySpelled.bare {bounded : Bool} {p g : List Char} (hne : p ≠ [])
    (h : p.all isBare = true) (hg : Gap g) : KeySpelled bounded [p] (p ++ g) where
  parts := .last gap_nil (.bare hne (List.all_eq_true.mp h)) hg
  bound _ := (by decide : 1 < tooDeep)

theorem KeySpelled.plain {bounded : Bool} {p : List Char} (hne : p ≠ [])
    (h : p.all isBare = true) : KeySpelled bounded [p] p := by
  have hbare : KeySpelled bounded [p] (p ++ []) := .bare hne h gap_nil
  rwa [List.append_nil] at hbare

/-! ### Values -/

/-- What a stretch of text inside a line stands for: a value, the values of an array, or the pairs of
an inline table. -/
inductive Phrase where
  | value (v : Item)
  | items (vs : List Item)
  | pairs (ps : List (Path × Item))

/-- The pairs of an inline table as lines. -/
def linesOf (ps : List (Path × Item)) : List Statement := ps.map fun p => .pair [] p.1 p.2

/-- The entries that the pairs of an inline table make. -/
def entriesOf (ps : List (Path × Item)) : Entries := (build? (linesOf ps) []).getD []

/-- A value inside `depth` brackets, the values of an array up to its closing bracket, or the pairs of
an inline table up to its closing brace. -/
inductive Spelled (bounded : Bool) : (depth : Nat) → Phrase → List Char → Prop
  | string {d : Nat} {s t : List Char} (h : StringSpelled s t) :
      Spelled bounded d (.value (.string s)) t
  | yes {d : Nat} : Spelled bounded d (.value (.boolean true)) ['t', 'r', 'u', 'e']
  | no {d : Nat} : Spelled bounded d (.value (.boolean false)) ['f', 'a', 'l', 's', 'e']
  | number {d : Nat} {v : Item} {t : List Char} (h : NumberSpelled bounded v t) :
      Spelled bounded d (.value v) t
  | moment {d : Nat} {t : List Char} (h : MomentSpelled t) : Spelled bounded d (.value .moment) t
  | array {d : Nat} {vs : List Item} {t : List Char} (hd : bounded = true → d + 1 < tooDeep)
      (h : Spelled bounded (d + 1) (.items vs) t) : Spelled bounded d (.value (.array vs)) ('[' :: t)
  | emptyInline {d : Nat} {g : List Char} (hd : bounded = true → d + 1 < tooDeep) (hg : Gap g) :
      Spelled bounded d (.value (.inline [])) ('{' :: (g ++ ['}']))
  | inline {d : Nat} {ps : List (Path × Item)} {t : List Char}
      (hd : bounded = true → d + 1 < tooDeep) (h : Spelled bounded (d + 1) (.pairs ps) t)
      (honce : NamesOnce [] (linesOf ps)) :
      Spelled bounded d (.value (.inline (entriesOf ps))) ('{' :: t)
  | noItems {d : Nat} {f : List Char} (hf : Filler f) : Spelled bounded d (.items []) (f ++ [']'])
  | lastItem {d : Nat} {v : Item} {f t f' : List Char} (hf : Filler f)
      (h : Spelled bounded d (.value v) t) (hf' : Filler f') :
      Spelled bounded d (.items [v]) (f ++ (t ++ (f' ++ [']'])))
  | item {d : Nat} {v : Item} {vs : List Item} {f t f' ts : List Char} (hf : Filler f)
      (h : Spelled bounded d (.value v) t) (hf' : Filler f') (hs : Spelled bounded d (.items vs) ts) :
      Spelled bounded d (.items (v :: vs)) (f ++ (t ++ (f' ++ ',' :: ts)))
  | lastPair {d : Nat} {path : Path} {v : Item} {k g t g' : List Char}
      (hk : KeySpelled bounded path k) (hg : Gap g) (h : Spelled bounded d (.value v) t)
      (hg' : Gap g') :
      Spelled bounded d (.pairs [(path, v)]) (k ++ '=' :: (g ++ (t ++ (g' ++ ['}']))))
  | pair {d : Nat} {path : Path} {v : Item} {ps : List (Path × Item)} {k g t g' ts : List Char}
      (hk : KeySpelled bounded path k) (hg : Gap g) (h : Spelled bounded d (.value v) t)
      (hg' : Gap g') (hs : Spelled bounded d (.pairs ps) ts) :
      Spelled bounded d (.pairs ((path, v) :: ps)) (k ++ '=' :: (g ++ (t ++ (g' ++ ',' :: ts))))

/-! ### Lines -/

/-- What a line says, without its end. The first header is the one that it belongs to; the second is the
one that the next line belongs to. -/
inductive LineSpelled (bounded : Bool) : Path → Path → List Statement → List Char → Prop
  | nothing {u : Path} : LineSpelled bounded u u [] []
  | header {u path : Path} {g k : List Char} (hg : Gap g) (hk : KeySpelled bounded path k) :
      LineSpelled bounded u path [.header path] (g ++ '[' :: (k ++ [']']))
  | element {u path : Path} {g k : List Char} (hg : Gap g) (hk : KeySpelled bounded path k) :
      LineSpelled bounded u path [.element path] (g ++ '[' :: '[' :: (k ++ [']', ']']))
  | pair {u path : Path} {v : Item} {k g t : List Char} (hk : KeySpelled bounded path k)
      (hg : Gap g) (h : Spelled bounded 0 (.value v) t) :
      LineSpelled bounded u u [.pair u path v] (k ++ '=' :: (g ++ t))

/-- Lines below a header, and the text with them. The last line may end with the text. -/
inductive DocumentSpelled (bounded : Bool) : Path → List Statement → List Char → Prop
  | nil {u : Path} : DocumentSpelled bounded u [] []
  | last {u u' : Path} {ss : List Statement} {t e : List Char} (h : LineSpelled bounded u u' ss t)
      (he : Trail e) : DocumentSpelled bounded u ss (t ++ e)
  | line {u u' : Path} {ss ss' : List Statement} {t e n ts : List Char}
      (h : LineSpelled bounded u u' ss t) (he : Trail e) (hn : Newline n)
      (hs : DocumentSpelled bounded u' ss' ts) :
      DocumentSpelled bounded u (ss ++ ss') (t ++ (e ++ (n ++ ts)))

/-! ### Plain spellings -/

theorem digitsSpelled_of_forall {isBase : Char → Bool} {ds : List Char} (hne : ds ≠ [])
    (h : ∀ c ∈ ds, isBase c = true) : DigitsSpelled isBase ds ds := by
  induction ds with
  | nil => exact absurd rfl hne
  | cons c ds ih =>
    have hc := h c List.mem_cons_self
    by_cases hds : ds = []
    · subst hds
      exact .one hc
    · exact .cons hc (ih hds fun d hd => h d (List.mem_cons_of_mem _ hd))

theorem decimalSpelled_digits (n : Nat) : DecimalSpelled (digits n) (digits n) := by
  by_cases hn : n = 0
  · subst hn
    rw [digits_of_lt (by decide)]
    exact .zero
  · exact .digits (digitsSpelled_of_forall (digits_ne_nil n) fun _ => isDigit_of_mem_digits)
      (head?_digits (Nat.pos_of_ne_zero hn))

/-- A number may be written in its digits. -/
theorem spelled_digits {bounded : Bool} {d n : Nat} (hn : n < signedLimit) :
    Spelled bounded d (.value (.integer n)) (digits n) := by
  have hvalue : signed false (digitsValue (digits n)) = n := by rw [digitsValue_digits]; rfl
  rw [← hvalue]
  have hsigned : NumberSpelled bounded (.integer (signed false (digitsValue (digits n))))
      ([] ++ digits n) :=
    .decimal .absent (decimalSpelled_digits n) (by omega) (by omega)
  exact .number hsigned

/-- Whether a character is a printable one of ASCII, and neither a quote nor a backslash. -/
def isPlain (c : Char) : Bool := ' ' ≤ c && c ≤ '~' && c != '"' && c != '\\'

/-- A text of such characters may be written between quotes. -/
theorem spelled_plain {bounded : Bool} {d : Nat} {s : List Char} (h : s.all isPlain = true) :
    Spelled bounded d (.value (.string s)) ('"' :: (s ++ ['"'])) := by
  refine .string (.basic ?_)
  induction s with
  | nil => exact .nil
  | cons c s ih =>
    rw [List.all_cons, Bool.and_eq_true] at h
    obtain ⟨hc, hs⟩ := h
    simp only [isPlain, Bool.and_eq_true, decide_eq_true_eq, bne_iff_ne] at hc
    obtain ⟨⟨⟨hlow, hhigh⟩, hquote⟩, hback⟩ := hc
    refine .plain ?_ hquote hback (ih hs)
    have hlow' : 0x20 ≤ c.toNat := hlow
    have hhigh' : c.toNat ≤ 0x7E := hhigh
    simp [isText]
    omega

section Lines

variable {bounded : Bool} {u path : Path} {ss : List Statement} {v : Item} {p k t e ts : List Char}

/-- A line with nothing but a comment, or with nothing. -/
theorem DocumentSpelled.remarkLine (he : Trail e) (hs : DocumentSpelled bounded u ss ts) :
    DocumentSpelled bounded u ss (e ++ '\n' :: ts) :=
  .line .nothing he .feed hs

/-- A header on a line of its own. -/
theorem DocumentSpelled.headerLine (hk : KeySpelled bounded path k) (he : Trail e)
    (hs : DocumentSpelled bounded path ss ts) :
    DocumentSpelled bounded u (.header path :: ss) ('[' :: (k ++ ']' :: (e ++ '\n' :: ts))) := by
  have hline := DocumentSpelled.line (.header (u := u) gap_nil hk) he .feed hs
  simpa using hline

/-- A name without quotes and its value on a line of their own. -/
theorem DocumentSpelled.pairLine (hne : p ≠ []) (hp : p.all isBare = true)
    (h : Spelled bounded 0 (.value v) t) (he : Trail e) (hs : DocumentSpelled bounded u ss ts) :
    DocumentSpelled bounded u (.pair u [p] v :: ss)
      (p ++ ' ' :: '=' :: ' ' :: (t ++ (e ++ '\n' :: ts))) := by
  have hline := DocumentSpelled.line (.pair (u := u) (.bare hne hp gap_space) gap_space h) he .feed hs
  simpa using hline

end Lines

end LoadRig.Toml
