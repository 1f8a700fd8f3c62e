import LoadRig.Proofs.Json.CodeUnits
/-!
# How a text is written

A text is written in one of the many ways to spell it: most characters stand for themselves, and those
that may not have the shortest escape there is. The control characters without a short escape come back
as code units, which are code units of no pair.

## Main definitions

* `LoadRig.Json.pieceOf` — what is read for one character that was written.

## Main results

* `LoadRig.Json.literal_quoted` — the literal that is written is a spelling.
* `LoadRig.Json.decodePieces?_map_pieceOf` — it stands for the text that was written.
-/

namespace LoadRig.Json

open LoadRig.Text

/-- The characters that have a short escape. -/
def shorts : List Char := ['"', '\\', '\x08', '\x0c', '\n', '\r', '\t']

/-- Whether a character is written as a numeric escape. -/
def isNumeric (c : Char) : Bool := c.toNat < 0x20 && !shorts.contains c

/-- What is read for one character that was written. -/
def pieceOf (c : Char) : Piece := if isNumeric c then .unit c.toNat else .char c

/-! ### One character -/

theorem unit?_hexChar {n : Nat} (h : n < 0x20) :
    unit? '0' '0' (hexChar (n / 16)) (hexChar (n % 16)) = some n := by
  revert n
  decide

/-- A character without a short escape has a numeric one, or stands for itself. -/
theorem escape_of_notMem_shorts {c : Char} (h : c ∉ shorts) :
    escape c =
      if c.toNat < 0x20 then
        ['\\', 'u', '0', '0', hexChar (c.toNat / 16), hexChar (c.toNat % 16)]
      else [c] := by
  simp only [shorts, List.mem_cons, List.not_mem_nil, or_false, not_or] at h
  simp [escape, h]

/-- What is written for a character spells its piece. -/
theorem spelled_escape (c : Char) : (pieceOf c).Spelled (escape c) := by
  by_cases hs : c ∈ shorts
  · simp only [shorts, List.mem_cons, List.not_mem_nil, or_false] at hs
    rcases hs with rfl | rfl | rfl | rfl | rfl | rfl | rfl <;> exact .short (by decide)
  · rw [escape_of_notMem_shorts hs]
    split
    · next hc =>
      have hp : pieceOf c = .unit c.toNat := by simp [pieceOf, isNumeric, hs, hc]
      rw [hp]
      exact .unit (unit?_hexChar hc)
    · next hc =>
      have hp : pieceOf c = .char c := by simp [pieceOf, isNumeric, hc]
      rw [hp]
      exact .plain (fun h => hs (by simp [h, shorts])) (fun h => hs (by simp [h, shorts])) hc

/-- A character that is read as a code unit is that code unit. -/
theorem units_pieceOf (c : Char) : (pieceOf c).units = codeUnits c := by
  rw [pieceOf]
  split
  · next hc =>
    have hlt : c.toNat < 0x20 := by
      simp only [isNumeric, Bool.and_eq_true, decide_eq_true_eq] at hc
      exact hc.1
    rw [codeUnits, if_pos (by omega)]
    rfl
  · rfl

/-! ### Whole texts -/

/-- **The literal of a text is a spelling** of its pieces. -/
theorem literal_quoted (cs : List Char) : Literal (cs.map pieceOf) (cs.flatMap escape ++ ['"']) := by
  induction cs with
  | nil => exact .close
  | cons c cs ih =>
    rw [List.map_cons, List.flatMap_cons, List.append_assoc]
    exact .piece (spelled_escape c) ih

theorem units_map_pieceOf (cs : List Char) : units (cs.map pieceOf) = cs.flatMap codeUnits := by
  rw [units, List.flatMap_map]
  exact congrArg (cs.flatMap ·) (funext units_pieceOf)

/-- **The pieces of a literal stand for the text that was written.** -/
theorem decodePieces?_map_pieceOf (cs : List Char) : decodePieces? (cs.map pieceOf) = some cs :=
  decodePieces?_of_units (units_map_pieceOf cs)

end LoadRig.Json
