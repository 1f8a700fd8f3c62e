import LoadRig.Proofs.Text.Hex
import LoadRig.Url.Escape
import Mathlib.Data.Char
/-!
# What is escaped once is not escaped again

Escaping leaves nothing behind that needs it, because neither a percent sign nor a hexadecimal digit
ever does. So a part of an address that was read is written as it is and read as it is written.

## Main definitions

* `LoadRig.Url.Clean` — a text in which nothing needs to be escaped.

## Main results

* `LoadRig.Url.escape_eq_self` — such a text stays as it is.
* `LoadRig.Url.clean_escape_inUserInfo` and its likes — what is left of a text is such a text.
* `LoadRig.Url.unescape_eq_utf8` — a text without percent signs.
-/

namespace LoadRig.Url

open LoadRig.Text

variable {needs : Char → Bool} {cs : List Char} {c : Char}

/-- Nothing in a text needs to be escaped. -/
def Clean (needs : Char → Bool) (cs : List Char) : Prop := ∀ c ∈ cs, needs c = false

/-- A text in which nothing needs to be escaped stays as it is. -/
theorem escape_eq_self (h : Clean needs cs) : escape needs cs = cs := by
  induction cs with
  | nil => rfl
  | cons c cs ih =>
    obtain ⟨hc, hcs⟩ := List.forall_mem_cons.mp h
    rw [escape, List.flatMap_cons, escapeChar, hc, if_neg Bool.false_ne_true]
    exact congrArg (c :: ·) (ih hcs)

/-- What an escaped text is made of. -/
theorem of_mem_escape (h : c ∈ escape needs cs) :
    c ∈ cs ∧ needs c = false ∨ c = '%' ∨ ∃ d < 16, c = (hexChar d).toUpper := by
  obtain ⟨x, hx, hc⟩ := List.mem_flatMap.mp h
  rw [escapeChar] at hc
  split at hc
  · obtain ⟨b, -, hb⟩ := List.mem_flatMap.mp hc
    simp only [escapeByte, List.mem_cons, List.not_mem_nil, or_false] at hb
    have hbyte := b.toNat_lt
    rcases hb with rfl | rfl | rfl
    · exact .inr (.inl rfl)
    · exact .inr (.inr ⟨b.toNat / 16, by omega, rfl⟩)
    · exact .inr (.inr ⟨b.toNat % 16, Nat.mod_lt _ (by decide), rfl⟩)
  · next hneeds =>
    obtain rfl := List.mem_singleton.mp hc
    exact .inl ⟨hx, Bool.not_eq_true _ ▸ hneeds⟩

/-- Escaping leaves nothing behind that needs it, if what it writes does not. -/
theorem clean_escape (hpercent : needs '%' = false)
    (hdigits : ∀ d < 16, needs (hexChar d).toUpper = false) (cs : List Char) :
    Clean needs (escape needs cs) := by
  intro c hc
  rcases of_mem_escape hc with ⟨-, h⟩ | rfl | ⟨d, hd, rfl⟩
  · exact h
  · exact hpercent
  · exact hdigits d hd

theorem clean_escape_inUserInfo (cs : List Char) : Clean inUserInfo (escape inUserInfo cs) :=
  clean_escape (by decide) (by decide) cs

theorem clean_escape_inPath (cs : List Char) : Clean inPath (escape inPath cs) :=
  clean_escape (by decide) (by decide) cs

theorem clean_escape_inQuery (cs : List Char) : Clean inQuery (escape inQuery cs) :=
  clean_escape (by decide) (by decide) cs

theorem clean_escape_inFragment (cs : List Char) : Clean inFragment (escape inFragment cs) :=
  clean_escape (by decide) (by decide) cs

/-! ### Texts without percent signs -/

/-- The bytes of a text. -/
def utf8 (cs : List Char) : List UInt8 := cs.flatMap String.utf8EncodeChar

/-- Behind a text without percent signs there is nothing but its bytes. -/
theorem unescape_eq_utf8 (h : '%' ∉ cs) : unescape cs = utf8 cs := by
  induction cs with
  | nil => rfl
  | cons c cs ih =>
    obtain ⟨hc, hcs⟩ := List.ne_and_not_mem_of_not_mem_cons h
    rw [unescape, ih hcs]
    · rfl
    · rintro a b rest rfl
      exact absurd rfl hc

end LoadRig.Url
