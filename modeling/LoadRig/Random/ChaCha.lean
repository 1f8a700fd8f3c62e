/-!
# The stream of random words

Seeded traffic is drawn from the ChaCha stream cipher with twelve rounds, an empty nonce and a block
counter of sixty-four bits. A block is sixteen words; the words of all blocks, in order, are the
stream. The key comes from the seed by a linear congruential generator whose states are scrambled
into one word each.

## Main definitions

* `LoadRig.Random.block` — sixteen words from a key and a block number.
* `LoadRig.Random.ChaCha` — a place in the stream; `LoadRig.Random.ChaCha.next` reads on.
* `LoadRig.Random.ChaCha.ofSeed` — the start of the stream of a seed.
-/

namespace LoadRig.Random

/-- The sixteen words that the cipher works on. -/
abbrev State := Vector UInt32 16

/-- A word turned left by `n` bits, for `0 < n < 32`. -/
def rotateLeft (x n : UInt32) : UInt32 := (x <<< n) ||| (x >>> (32 - n))

/-- Stirs four words of the state. -/
def quarter (s : State) (a b c d : Fin 16) : State :=
  let s := s.set a (s[a] + s[b])
  let s := s.set d (rotateLeft (s[d] ^^^ s[a]) 16)
  let s := s.set c (s[c] + s[d])
  let s := s.set b (rotateLeft (s[b] ^^^ s[c]) 12)
  let s := s.set a (s[a] + s[b])
  let s := s.set d (rotateLeft (s[d] ^^^ s[a]) 8)
  let s := s.set c (s[c] + s[d])
  s.set b (rotateLeft (s[b] ^^^ s[c]) 7)

/-- Two rounds: the columns of the state, then its diagonals. -/
def doubleRound (s : State) : State :=
  let s := quarter s 0 4 8 12
  let s := quarter s 1 5 9 13
  let s := quarter s 2 6 10 14
  let s := quarter s 3 7 11 15
  let s := quarter s 0 5 10 15
  let s := quarter s 1 6 11 12
  let s := quarter s 2 7 8 13
  quarter s 3 4 9 14

/-- A key of eight words. -/
abbrev Key := Vector UInt32 8

/-- The state before the rounds: four constants, the key, the block number, no nonce. -/
def initial (key : Key) (number : UInt64) : State :=
  let constants : Vector UInt32 4 := #v[0x61707865, 0x3320646e, 0x79622d32, 0x6b206574]
  let tail : Vector UInt32 4 := #v[number.toUInt32, (number >>> 32).toUInt32, 0, 0]
  constants ++ key ++ tail

/-- The block of a number: twelve rounds, and the state before them added. -/
def block (key : Key) (number : UInt64) : State :=
  let start := initial key number
  let stirred := (List.range 6).foldl (fun s _ => doubleRound s) start
  Vector.zipWith (· + ·) stirred start

/-- A place in the stream: the words of the current block that are left, and the number of the
next block. -/
structure ChaCha where
  key : Key
  number : UInt64
  rest : List UInt32
deriving Repr

/-! ### Seeds -/

/-- One state of the generator that spreads a seed. -/
def spread (s : UInt64) : UInt64 := s * 6364136223846793005 + 11634580027462260723

/-- The word that a state of the spreading generator yields: bits of it, turned right by its
topmost five. -/
def scramble (s : UInt64) : UInt32 :=
  let x := (((s >>> 18) ^^^ s) >>> 27).toUInt32
  let turn := (s >>> 59).toUInt32
  if turn == 0 then x else (x >>> turn) ||| (x <<< (32 - turn))

/-- The key of a seed: one word from each of the next eight states. -/
def keyOfSeed (seed : UInt64) : Key :=
  Vector.ofFn fun i => scramble ((List.range (i.val + 1)).foldl (fun s _ => spread s) seed)

namespace ChaCha

/-- The start of the stream of a seed. -/
def ofSeed (seed : UInt64) : ChaCha := { key := keyOfSeed seed, number := 0, rest := [] }

/-- The next word of the stream. -/
def next (c : ChaCha) : UInt32 × ChaCha :=
  match c.rest with
  | w :: rest => (w, { c with rest })
  | [] =>
    let words := block c.key c.number
    (words[0], { c with number := c.number + 1, rest := words.toList.drop 1 })

end ChaCha

end LoadRig.Random
