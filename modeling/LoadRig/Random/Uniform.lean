import LoadRig.Random.ChaCha
import LoadRig.Word
/-!
# Uniform choices

A number from `0` to `n - 1` is taken from random words by a widening product: a word times `n` is
twice as wide as the word, its high half is the number, and its low half tells whether the word
lies in the last, incomplete share of the words, in which case the next word is tried. Words are of
thirty-two bits, or two of them make one of sixty-four.

Where the words come from is left open: `WordSource` is anything that yields one word after the
other, so what is said of a choice holds for every stream of words. A source that only yields
words of the incomplete share is given up after `2 ^ 64` of them, in favour of zero.

## Main definitions

* `LoadRig.Random.WordSource` — a source of words of thirty-two bits.
* `LoadRig.Random.Width` — the two widths; `LoadRig.Random.Width.draw` reads one word.
* `LoadRig.Random.zone` — the last low half that is taken.
* `LoadRig.Random.below` — the choice.
-/

namespace LoadRig.Random

/-- A source of words of thirty-two bits. -/
class WordSource (σ : Type) where
  next : σ → UInt32 × σ

instance : WordSource ChaCha := ⟨ChaCha.next⟩

/-- A stream of words, given place by place. -/
structure WordStream where
  word : Nat → UInt32
  place : Nat

instance : WordSource WordStream := ⟨fun s => (s.word s.place, { s with place := s.place + 1 })⟩

/-- How wide the words of a choice are. -/
inductive Width where
  | narrow
  | wide
deriving DecidableEq, Repr

namespace Width

/-- The number of bits. -/
def bits : Width → Nat
  | narrow => 32
  | wide => 64

/-- One more than the greatest word. -/
def limit : Width → Nat
  | narrow => narrowLimit
  | wide => wideLimit

/-- Reads one word; a wide one is two narrow ones, the low half first. -/
def draw {σ : Type} [WordSource σ] (w : Width) (s : σ) : Nat × σ :=
  match w with
  | narrow =>
    let (x, s) := WordSource.next s
    (x.toNat, s)
  | wide =>
    let (low, s) := WordSource.next s
    let (high, s) := WordSource.next s
    (low.toNat + high.toNat * narrowLimit, s)

end Width

/-- The last low half for which a word is taken: `n` shifted up to the width, less one. -/
def zone (w : Width) (n : Nat) : Nat := n * Nat.pow 2 (w.bits - 1 - n.log2) - 1

/-- Tries words until one is taken. -/
def belowAux {σ : Type} [WordSource σ] (w : Width) (n : Nat) : Nat → σ → Nat × σ
  | 0, s => (0, s)
  | tries + 1, s =>
    let (x, s) := w.draw s
    if x * n % w.limit ≤ zone w n then (x * n / w.limit, s) else belowAux w n tries s

/-- A number below `n`, for `0 < n ≤ w.limit`. Where `n` is the limit the word itself is the number. -/
def below {σ : Type} [WordSource σ] (w : Width) (n : Nat) (s : σ) : Nat × σ :=
  if n = w.limit then w.draw s else belowAux w n wideLimit s

end LoadRig.Random
