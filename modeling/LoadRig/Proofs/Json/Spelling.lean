import LoadRig.Json.Tree
/-!
# How a tree may be spelled

The grammar of JSON texts, as relations between what is meant and the characters that spell it. One
tree has many spellings: blanks may stand around every value and every name, a character may stand for
itself or be written as an escape, and the letter of an exponent may be large or small. The relations
say what all these spellings are, piece by piece and without a word about how a text is read.

Nothing here bounds the depth of a tree or the length of a text. A literal may hold code units that
belong to no character, a number may be out of every range, and an object may have members of equal
names: all that follows the grammar, and it is up to the reader of values what to make of it.

## Main definitions

* `LoadRig.Json.Literal` — the spellings of a string behind its opening quote.
* `LoadRig.Json.Numeral.Spelled` — the spellings of a number.
* `LoadRig.Json.Tree.Spelled` — the spellings of a tree, without blanks around it.
* `LoadRig.Json.Tree.Padded` — the same with blanks around it, which is a whole text.

## Main results

* `LoadRig.Json.Tree.elim` — induction over trees.
-/

namespace LoadRig.Json

open LoadRig.Text

/-! ### Blanks and digits -/

/-- A run of blanks, which may be empty. -/
def Blanks (cs : List Char) : Prop := ∀ c ∈ cs, isSpace c = true

/-- A run of digits, at least one. -/
def DigitRun (ds : List Char) : Prop := ds ≠ [] ∧ ∀ c ∈ ds, c.isDigit = true

/-! ### Numbers -/

/-- The fraction of a number: nothing, or a point and digits. -/
inductive FractionSpelled : Option (List Char) → List Char → Prop
  | absent : FractionSpelled none []
  | digits {ds : List Char} (h : DigitRun ds) : FractionSpelled (some ds) ('.' :: ds)

/-- The exponent of a number: nothing, or a letter and digits with a sign before them or none. -/
inductive ExponentSpelled : Option Int → List Char → Prop
  | absent : ExponentSpelled none []
  | bare {l : Char} {ds : List Char} (hl : l = 'e' ∨ l = 'E') (h : DigitRun ds) :
      ExponentSpelled (some (digitsValue ds)) (l :: ds)
  | plus {l : Char} {ds : List Char} (hl : l = 'e' ∨ l = 'E') (h : DigitRun ds) :
      ExponentSpelled (some (digitsValue ds)) (l :: '+' :: ds)
  | minus {l : Char} {ds : List Char} (hl : l = 'e' ∨ l = 'E') (h : DigitRun ds) :
      ExponentSpelled (some (-(digitsValue ds : Int))) (l :: '-' :: ds)

/-- The sign before a number. -/
def signText (negative : Bool) : List Char := if negative then ['-'] else []

/-- A number: a sign or none, digits among which a zero comes first only alone, a fraction and an
exponent. -/
inductive Numeral.Spelled : Numeral → List Char → Prop
  | mk {negative : Bool} {whole : List Char} {fraction : Option (List Char)} {exponent : Option Int}
      {f e : List Char} (hw : DigitRun whole) (hz : whole.head? = some '0' → whole = ['0'])
      (hf : FractionSpelled fraction f) (he : ExponentSpelled exponent e) :
      Numeral.Spelled { negative, whole, fraction, exponent }
        (signText negative ++ (whole ++ (f ++ e)))

/-! ### Strings -/

/-- One item of a literal: a character as it is or as a short escape, or a code unit as four
hexadecimal digits. -/
inductive Piece.Spelled : Piece → List Char → Prop
  | plain {c : Char} (hq : c ≠ '"') (hb : c ≠ '\\') (hc : ¬ c.toNat < 0x20) :
      Piece.Spelled (.char c) [c]
  | short {e c : Char} (h : shortEscape? e = some c) : Piece.Spelled (.char c) ['\\', e]
  | unit {a b c d : Char} {u : Nat} (h : unit? a b c d = some u) :
      Piece.Spelled (.unit u) ['\\', 'u', a, b, c, d]

/-- The items of a literal one after the other, and its closing quote. -/
inductive Literal : List Piece → List Char → Prop
  | close : Literal [] ['"']
  | piece {p : Piece} {ps : List Piece} {s cs : List Char} (hp : p.Spelled s) (h : Literal ps cs) :
      Literal (p :: ps) (s ++ cs)

/-- The name of a member, with blanks around it. -/
inductive NameSpelled : List Piece → List Char → Prop
  | mk {ps : List Piece} {b cs b' : List Char} (hb : Blanks b) (h : Literal ps cs)
      (hb' : Blanks b') : NameSpelled ps (b ++ ('"' :: (cs ++ b')))

/-! ### Values -/

mutual

/-- A value without blanks around it. -/
inductive Tree.Spelled : Tree → List Char → Prop
  | null : Tree.Spelled .null ['n', 'u', 'l', 'l']
  | yes : Tree.Spelled (.bool true) ['t', 'r', 'u', 'e']
  | no : Tree.Spelled (.bool false) ['f', 'a', 'l', 's', 'e']
  | number {n : Numeral} {cs : List Char} (h : n.Spelled cs) : Tree.Spelled (.number n) cs
  | string {ps : List Piece} {cs : List Char} (h : Literal ps cs) :
      Tree.Spelled (.string ps) ('"' :: cs)
  | emptyArray {b : List Char} (h : Blanks b) : Tree.Spelled (.array []) ('[' :: (b ++ [']']))
  | array {ts : List Tree} {cs : List Char} (h : Tree.SpelledItems ts cs) :
      Tree.Spelled (.array ts) ('[' :: (cs ++ [']']))
  | emptyObject {b : List Char} (h : Blanks b) : Tree.Spelled (.object []) ('{' :: (b ++ ['}']))
  | object {ms : List (List Piece × Tree)} {cs : List Char} (h : Tree.SpelledMembers ms cs) :
      Tree.Spelled (.object ms) ('{' :: (cs ++ ['}']))

/-- A value with blanks around it. -/
inductive Tree.Padded : Tree → List Char → Prop
  | mk {t : Tree} {b cs b' : List Char} (hb : Blanks b) (h : Tree.Spelled t cs) (hb' : Blanks b') :
      Tree.Padded t (b ++ (cs ++ b'))

/-- The values of an array that has at least one, with commas between them. -/
inductive Tree.SpelledItems : List Tree → List Char → Prop
  | last {t : Tree} {cs : List Char} (h : Tree.Padded t cs) : Tree.SpelledItems [t] cs
  | cons {t : Tree} {ts : List Tree} {cs cs' : List Char} (h : Tree.Padded t cs)
      (hs : Tree.SpelledItems ts cs') : Tree.SpelledItems (t :: ts) (cs ++ ',' :: cs')

/-- The members of an object that has at least one, with commas between them. -/
inductive Tree.SpelledMembers : List (List Piece × Tree) → List Char → Prop
  | last {ps : List Piece} {t : Tree} {n cs : List Char} (hn : NameSpelled ps n)
      (h : Tree.Padded t cs) : Tree.SpelledMembers [(ps, t)] (n ++ ':' :: cs)
  | cons {ps : List Piece} {t : Tree} {ms : List (List Piece × Tree)} {n cs cs' : List Char}
      (hn : NameSpelled ps n) (h : Tree.Padded t cs) (hs : Tree.SpelledMembers ms cs') :
      Tree.SpelledMembers ((ps, t) :: ms) (n ++ ':' :: (cs ++ ',' :: cs'))

end

/-- Induction over trees, with a hypothesis for every item and for the value of every member. -/
@[elab_as_elim]
theorem Tree.elim {motive : Tree → Prop} (null : motive .null) (bool : ∀ b, motive (.bool b))
    (number : ∀ n, motive (.number n)) (string : ∀ ps, motive (.string ps))
    (array : ∀ ts, (∀ t ∈ ts, motive t) → motive (.array ts))
    (object : ∀ ms, (∀ m ∈ ms, motive m.2) → motive (.object ms)) (t : Tree) : motive t :=
  @Tree.rec motive (fun ts => ∀ t ∈ ts, motive t) (fun ms => ∀ m ∈ ms, motive m.2)
    (fun m => motive m.2) null bool number string array object
    (List.forall_mem_nil _) (fun _ _ ht hts => List.forall_mem_cons.mpr ⟨ht, hts⟩)
    (List.forall_mem_nil _) (fun _ _ hm hms => List.forall_mem_cons.mpr ⟨hm, hms⟩)
    (fun _ _ ht => ht) t

end LoadRig.Json
