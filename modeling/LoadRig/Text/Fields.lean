/-!
# Texts cut at separators

A text with separators in it is a list of fields, one more than it has separators: the empty text is
one empty field.

## Main definitions

* `LoadRig.Text.fields` — the fields of a text.
* `LoadRig.Text.joined` — fields with one character between them.
-/

namespace LoadRig.Text

/-- What stands between separators. -/
def fields (isSeparator : Char → Bool) : List Char → List (List Char)
  | [] => [[]]
  | c :: cs =>
    if isSeparator c then [] :: fields isSeparator cs
    else
      match fields isSeparator cs with
      | [] => [[c]]
      | f :: fs => (c :: f) :: fs

/-- Fields with a separator between them. -/
def joined (separator : Char) : List (List Char) → List Char
  | [] => []
  | [f] => f
  | f :: fs => f ++ separator :: joined separator fs

theorem fields_ne_nil (p : Char → Bool) (cs : List Char) : fields p cs ≠ [] := by
  induction cs with
  | nil => simp [fields]
  | cons c cs ih =>
    rw [fields]
    split
    · simp
    · split <;> simp

end LoadRig.Text
