import LoadRig.Config.Basic
import LoadRig.Message.Item
import LoadRig.Random.Uniform
/-!
# Generated traffic

A generator makes one message after the other from a source of random words: a user, one of a fixed
set of bodies, a room and a kind, drawn in this order. Two generators with the same seed, rooms and
bodies make the same messages.

## Main definitions

* `LoadRig.ContentPool` — the bodies.
* `LoadRig.MessageGenerator` — a generator over any source of words.
* `LoadRig.MessageGenerator.next` — the next message.
* `LoadRig.MessageGenerator.ofLoad` — the seeded generator of a configuration.

## Main results

* `LoadRig.MessageGenerator.exists_below` — the four choices behind a message.
-/

namespace LoadRig

open LoadRig.Random

/-- The bodies that messages may have, numbered from one; there is at least one. -/
structure ContentPool where
  size : Nat
  size_pos : 0 < size := by decide
deriving DecidableEq, Repr

namespace ContentPool

/-- A pool of the given size; size zero counts as one. -/
def ofSize (n : Nat) : ContentPool := { size := max n 1, size_pos := by omega }

/-- The body in a place, counted from zero. -/
def body (i : Nat) : String :=
  "Sample chat message number " ++ Text.digitString (i + 1) ++ " for load testing"

/-- All bodies. -/
def bodies (p : ContentPool) : List String := (List.range p.size).map body

/-- Whether there are no bodies. -/
def isEmpty (p : ContentPool) : Bool := p.size == 0

end ContentPool

/-- Makes messages out of random words. -/
structure MessageGenerator (σ : Type) where
  source : σ
  pool : ContentPool
  rooms : Nat

namespace MessageGenerator

variable {σ : Type} [WordSource σ]

/-- The greatest user id that is drawn. -/
def greatestUser : Nat := 100000

/-- A generator for a number of rooms; no rooms count as one. -/
def create (rooms : Nat) (pool : ContentPool) (source : σ) : MessageGenerator σ :=
  { source, pool, rooms := max rooms 1 }

/-- The next message, made at a given moment. -/
def next (g : MessageGenerator σ) (now : Time.Instant) : WorkItem × MessageGenerator σ :=
  let (user, s) := below .narrow greatestUser g.source
  let (body, s) := below .wide g.pool.size s
  let (room, s) := below .narrow g.rooms s
  let (roll, s) := below .narrow 100 s
  ({ userId := user + 1, body := ContentPool.body body, createdAt := now,
     kind := .ofRoll roll, room := room + 1 }, { g with source := s })

/-- A message is drawn by four choices, one after the other. -/
theorem exists_below (g : MessageGenerator σ) :
    ∃ user place room roll s₁ s₂ s₃ s₄,
      below .narrow greatestUser g.source = (user, s₁) ∧
      below .wide g.pool.size s₁ = (place, s₂) ∧
      below .narrow g.rooms s₂ = (room, s₃) ∧ below .narrow 100 s₃ = (roll, s₄) ∧
      ∀ now, g.next now =
        ({ userId := user + 1, body := ContentPool.body place, createdAt := now,
           kind := .ofRoll roll, room := room + 1 }, { g with source := s₄ }) := by
  rcases huser : below .narrow greatestUser g.source with ⟨user, s₁⟩
  rcases hplace : below .wide g.pool.size s₁ with ⟨place, s₂⟩
  rcases hroom : below .narrow g.rooms s₂ with ⟨room, s₃⟩
  rcases hroll : below .narrow 100 s₃ with ⟨roll, s₄⟩
  refine ⟨user, place, room, roll, s₁, s₂, s₃, s₄, rfl, hplace, hroom, hroll, ?_⟩
  intro now
  simp only [next, huser, hplace, hroom, hroll]

/-- The first `n` messages, all made at one moment. -/
def take (now : Time.Instant) : Nat → MessageGenerator σ → List WorkItem
  | 0, _ => []
  | n + 1, g =>
    let (item, g) := g.next now
    item :: take now n g

end MessageGenerator

/-- A generator of seeded traffic. -/
abbrev SeededGenerator := MessageGenerator ChaCha

/-- The generator of a seed, which is taken modulo `2 ^ 64`. -/
def SeededGenerator.ofSeed (rooms : Nat) (pool : ContentPool) (seed : Nat) : SeededGenerator :=
  .create rooms pool (ChaCha.ofSeed (UInt64.ofNat seed))

/-- The generator of a configuration, with a number added to the seed that keeps the phases of a
run apart. Without a seed any stream will do; this one starts from zero. -/
def SeededGenerator.ofLoad (load : LoadConfig) (salt : Nat) : SeededGenerator :=
  .ofSeed load.rooms (.ofSize load.contentPoolSize) ((load.seed.getD 0) + salt)

end LoadRig
