/-!
# Words

Many numbers of this library are words of thirty-two or of sixty-four bits. They are kept as natural
numbers, with the limits below; whoever reads one in checks the limit, and whoever computes with
one says what happens there.

Powers whose exponent is fixed are written out, and others are taken with `Nat.pow`.

## Main definitions

* `LoadRig.narrowLimit`, `LoadRig.wideLimit`, `LoadRig.signedLimit`
* `LoadRig.wordMax` — the greatest number of sixty-four bits.
-/

namespace LoadRig

/-- One more than the greatest number of thirty-two bits. -/
def narrowLimit : Nat := 4294967296

/-- One more than the greatest number of sixty-four bits. -/
def wideLimit : Nat := 18446744073709551616

/-- One more than the greatest number of sixty-four bits with a sign. -/
def signedLimit : Nat := 9223372036854775808

/-- The greatest number of sixty-four bits. -/
def wordMax : Nat := 18446744073709551615

theorem narrowLimit_eq_pow : narrowLimit = Nat.pow 2 32 := by decide

theorem wideLimit_eq_pow : wideLimit = Nat.pow 2 64 := by decide

theorem wordMax_succ : wordMax + 1 = wideLimit := by decide

end LoadRig
