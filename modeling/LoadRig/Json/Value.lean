import LoadRig.Decimal.Layout
import LoadRig.Decimal.Scaled
import LoadRig.Json.Tree
import LoadRig.Keyed
import LoadRig.Word
/-!
# JSON values

A value is what a tree means: numbers are integers of sixty-four bits or doubles, strings are
texts, and an object is a finite map, kept as a list of members in ascending order of their names.
Reading a value off a tree fails where the tree names something that is no value: a string with a
lone surrogate, a number too large for a double, or too many levels of brackets.

One name is set apart. An object that begins with it is sealed: it is no object but stands for the
value of a text, which is the string under that name, and it may have no other member. Anywhere but
in the first place the name is like any other.

## Main definitions

* `LoadRig.Json.Value` — a value.
* `LoadRig.Json.Numeral.value?` — the number that a literal denotes.
* `LoadRig.Json.insertMember` — puts a member into an ordered list; the last one of a name counts.
* `LoadRig.Json.isSealed` — whether an object stands for the value of a text.
* `LoadRig.Json.Value.ofTree?` — the value of a tree.
* `LoadRig.Json.Value.ofText?` — the value of a text.
* `LoadRig.Json.Value.compact`, `LoadRig.Json.Value.pretty` — the two printed forms.
-/

namespace LoadRig.Json

open LoadRig.Text

/-- A JSON value. -/
inductive Value where
  | null
  | bool (b : Bool)
  | int (n : Int)
  | float (x : Float)
  | string (s : List Char)
  | array (items : List Value)
  | object (members : List (List Char × Value))

instance : Inhabited Value := ⟨.null⟩

/-! ### Reading -/

/-- A literal with a fraction, an exponent or too many digits, as a double. Digits are gathered
into one significand of sixty-four bits: those before the point that do not fit raise the exponent,
those behind it are dropped. -/
def Numeral.float? (n : Numeral) : Option Float :=
  let whole := n.whole.map digitValue
  let (s, taken) := Decimal.absorb 0 whole
  let (s, behind) := Decimal.absorb s ((n.fraction.getD []).map digitValue)
  let e : Int := ((whole.length - taken : Nat) : Int) - (behind : Int) + n.exponent.getD 0
  (Decimal.scaled? s e).map fun x => if n.negative then -x else x

/-- The number that a literal denotes: an integer if it is written as one and fits sixty-four
bits, else a double. Minus zero is a double. -/
def Numeral.value? (n : Numeral) : Option Value :=
  let m := digitsValue n.whole
  if n.fraction.isNone && n.exponent.isNone &&
      (if n.negative then 0 < m && m ≤ signedLimit else m < wideLimit) then
    some (.int (if n.negative then -m else m))
  else (n.float?).map .float

/-- Whether one name comes before another: by scalar values, the shorter of two that agree
first. -/
def nameBefore : List Char → List Char → Bool
  | _, [] => false
  | [], _ :: _ => true
  | a :: as, b :: bs => a.toNat < b.toNat || (a == b && nameBefore as bs)

/-- Puts a member into an ordered list, in place of one of the same name. -/
def insertMember {α : Type} (name : List Char) (v : α) (members : List (List Char × α)) :
    List (List Char × α) :=
  Keyed.alter nameBefore name (fun _ => v) members

/-- The deepest nesting of brackets that a text may have. -/
def deepestText : Nat := 127

/-- The deepest nesting of brackets in a value that is itself a member of an object. -/
def deepest : Nat := deepestText - 1

/-- The name that an object begins with if it stands for the value of a text. -/
def sealName : List Char := "$serde_json::private::RawValue".toList

/-- Whether an object is sealed. -/
def isSealed : List (List Piece × Tree) → Bool
  | [] => false
  | (name, _) :: _ => decodePieces? name == some sealName

/-- The text in a sealed object, if it has nothing else in it. -/
def sealedText? : List (List Piece × Tree) → Option (List Char)
  | [(_, .string pieces)] => decodePieces? pieces
  | _ => none

mutual

/-- The value of a tree with at most `levels` levels of brackets, where `open?` reads the texts in
sealed objects. -/
def Value.readTree? (open? : List Char → Option Value) (levels : Nat) : Tree → Option Value
  | .null => some .null
  | .bool b => some (.bool b)
  | .number n => n.value?
  | .string pieces => (decodePieces? pieces).map .string
  | .array items => do
    if levels = 0 then none
    let items ← Value.readItems? open? (levels - 1) items
    return .array items
  | .object members =>
    if levels = 0 then none
    else
      match isSealed members with
      | true => (sealedText? members).bind open?
      | false => (Value.readMembers? open? (levels - 1) members []).map .object

/-- The values of the items of an array. -/
def Value.readItems? (open? : List Char → Option Value) (levels : Nat) :
    List Tree → Option (List Value)
  | [] => some []
  | t :: ts => do
    let v ← Value.readTree? open? levels t
    let vs ← Value.readItems? open? levels ts
    return v :: vs

/-- The members of an object, put one after the other into an ordered list. -/
def Value.readMembers? (open? : List Char → Option Value) (levels : Nat) :
    List (List Piece × Tree) → List (List Char × Value) → Option (List (List Char × Value))
  | [], acc => some acc
  | (name, t) :: rest, acc => do
    let name ← decodePieces? name
    let v ← Value.readTree? open? levels t
    Value.readMembers? open? levels rest (insertMember name v acc)

end

/-- The value of a text. The texts in its sealed objects are shorter than it is, so the bound on
them is never felt. -/
def Value.ofText? (cs : List Char) : Option Value :=
  let open? (inner : List Char) : Option Value :=
    if inner.length < cs.length then Value.ofText? inner else none
  (Tree.parse? cs).bind (Value.readTree? open? deepestText)
termination_by cs.length

/-- The value of a tree with at most `levels` levels of brackets. A text in a sealed object has all
the levels of a text. -/
def Value.ofTree? (levels : Nat) (t : Tree) : Option Value :=
  Value.readTree? Value.ofText? levels t

/-! ### Writing -/

/-- Numbers in JSON texts: positional while the point stands behind at most sixteen digits or
before at most four zeros, and a plus sign before a large exponent. -/
def numberLayout : Decimal.Layout :=
  { leastPoint := -4
    greatestPoint := 16
    plus := ['+']
    nan := ['n', 'u', 'l', 'l']
    infinity := ['n', 'u', 'l', 'l'] }

/-- A double as a JSON text; the special values have no number and are written `null`. -/
def floatText (x : Float) : List Char :=
  if x.isFinite then numberLayout.text x else ['n', 'u', 'l', 'l']

mutual

/-- The value without any blanks. -/
def Value.compact : Value → List Char
  | .null => ['n', 'u', 'l', 'l']
  | .bool true => ['t', 'r', 'u', 'e']
  | .bool false => ['f', 'a', 'l', 's', 'e']
  | .int n => intDigits n
  | .float x => floatText x
  | .string s => quoted s
  | .array items => '[' :: Value.compactItems items ++ [']']
  | .object members => '{' :: Value.compactMembers members ++ ['}']

/-- Values with commas between them. -/
def Value.compactItems : List Value → List Char
  | [] => []
  | [v] => v.compact
  | v :: vs => v.compact ++ ',' :: Value.compactItems vs

/-- Members with commas between them. -/
def Value.compactMembers : List (List Char × Value) → List Char
  | [] => []
  | [(name, v)] => quoted name ++ ':' :: v.compact
  | (name, v) :: ms => quoted name ++ ':' :: v.compact ++ ',' :: Value.compactMembers ms

end

/-- A line break and two spaces for each level. -/
def newLine (level : Nat) : List Char := '\n' :: List.replicate (2 * level) ' '

mutual

/-- The value over several lines, each level indented by two spaces. Empty brackets stay on one
line. -/
def Value.pretty (level : Nat) : Value → List Char
  | .array [] => ['[', ']']
  | .array items => '[' :: Value.prettyItems (level + 1) items ++ newLine level ++ [']']
  | .object [] => ['{', '}']
  | .object members => '{' :: Value.prettyMembers (level + 1) members ++ newLine level ++ ['}']
  | v => v.compact

/-- Values, each on its own lines. -/
def Value.prettyItems (level : Nat) : List Value → List Char
  | [] => []
  | [v] => newLine level ++ v.pretty level
  | v :: vs => newLine level ++ v.pretty level ++ ',' :: Value.prettyItems level vs

/-- Members, each on its own lines. -/
def Value.prettyMembers (level : Nat) : List (List Char × Value) → List Char
  | [] => []
  | [(name, v)] => newLine level ++ quoted name ++ ':' :: ' ' :: v.pretty level
  | (name, v) :: ms =>
    newLine level ++ quoted name ++ ':' :: ' ' :: v.pretty level ++
      ',' :: Value.prettyMembers level ms

end

/-! ### Building -/

/-- A string value. -/
def Value.ofString (s : String) : Value := .string s.toList

/-- A natural number. -/
def Value.ofNat (n : Nat) : Value := .int n

/-- An object whose members stand in the given order. -/
def Value.record (members : List (String × Value)) : Value :=
  .object (members.map fun (name, v) => (name.toList, v))

/-- A member by its name. -/
def Value.member? (name : String) : Value → Option Value
  | .object members => (members.find? (·.1 == name.toList)).map (·.2)
  | _ => none

end LoadRig.Json
