import LoadRig.Generator
import LoadRig.Proofs.Chat.Agreement
import LoadRig.Proofs.Random.Uniform
/-!
# Generated messages are in range

A generator draws the user, the body, the room and the kind of a message by four choices. Whatever
words the source delivers, each of the four is in its range, so every message that is generated has a
user, a body and a room that exist. The service has limits of its own, on the user, on the length of
the body and on the year. The first two are met by every generated message, so it is accepted whenever
it was made in one of the years from 0 to 9999.

The rooms are counted by a number of thirty-two bits and the bodies by one of sixty-four bits. This is
used twice: every choice is computed without loss, and no body is longer than the service allows.

## Main definitions

* `LoadRig.MessageGenerator.after` — a generator that has made some messages.
* `LoadRig.MessageGenerator.Draws` — a message is drawn by four choices.
* `LoadRig.WorkItem.InRange` — what is true of every generated message.

## Main results

* `LoadRig.MessageGenerator.draws_next` — the next message is drawn.
* `LoadRig.MessageGenerator.inRange_of_draws` — a message that is drawn is in range.
* `LoadRig.MessageGenerator.exists_after` — a generator that goes on differs by its source only.
* `LoadRig.MessageGenerator.inRange_after` — every message of every generator.
-/

namespace LoadRig

open LoadRig.Random LoadRig.Text

/-! ### Bodies -/

namespace ContentPool

theorem size_ofSize (n : Nat) : (ofSize n).size = max n 1 := rfl

theorem body_mem_bodies {p : ContentPool} {i : Nat} (h : i < p.size) : body i ∈ p.bodies :=
  List.mem_map_of_mem (List.mem_range.mpr h)

/-- No body is longer than a hundred characters, if their number is a word of sixty-four bits. -/
theorem length_body {i : Nat} (h : i < wideLimit) : 1 ≤ (body i).length ∧ (body i).length ≤ 100 := by
  have hten : i + 1 < 10 ^ 20 := by
    unfold wideLimit at h
    omega
  have hdigits : (digits (i + 1)).length ≤ 20 := length_digits_le (by decide) hten
  have hnumber : (digitString (i + 1)).length = (digits (i + 1)).length := String.length_ofList
  have hbefore : "Sample chat message number ".length = 27 := rfl
  have hbehind : " for load testing".length = 17 := rfl
  have hlen : ∀ s t u : String, (s ++ t ++ u).length = s.length + t.length + u.length := by
    intro s t u
    rw [String.length_append, String.length_append]
  have hbody : (body i).length = _ :=
    hlen "Sample chat message number " (digitString (i + 1)) " for load testing"
  omega

end ContentPool

/-! ### One message -/

/-- What is true of every message that is generated for a number of rooms and of bodies. -/
structure WorkItem.InRange (rooms size : Nat) (item : WorkItem) : Prop where
  user : 1 ≤ item.userId ∧ item.userId ≤ 100000
  username : item.username = "user".toList ++ digits item.userId
  body : item.body ∈ (ContentPool.ofSize size).bodies
  room : 1 ≤ item.room ∧ item.room ≤ max rooms 1
  kind : ∃ roll < 100, item.kind = .ofRoll roll
  /-- The service accepts it, if it was made in one of the years that have four digits. -/
  accepted : 0 ≤ item.createdAt.year → item.createdAt.year ≤ 9999 →
    ∀ stamp, ∃ m, respond stamp item.payload.toList = .ok stamp m

namespace MessageGenerator

variable {σ : Type} [WordSource σ] {g : MessageGenerator σ} {item : WorkItem} {rest : σ}
  {now : Time.Instant} {rooms size : Nat}

/-- A message is drawn by four choices, one after the other. The last one is the roll that decides
the kind. -/
def Draws (g : MessageGenerator σ) (now : Time.Instant) (item : WorkItem) (rest : σ) : Prop :=
  ∃ user place room roll s₁ s₂ s₃,
    Picks .narrow greatestUser g.source user s₁ ∧ Picks .wide g.pool.size s₁ place s₂ ∧
    Picks .narrow g.rooms s₂ room s₃ ∧ Picks .narrow 100 s₃ roll rest ∧
    item.userId = user + 1 ∧ item.body = ContentPool.body place ∧ item.createdAt = now ∧
    item.kind = .ofRoll roll ∧ item.room = room + 1

/-- A generator that has made a message differs by its source only. -/
theorem snd_next (g : MessageGenerator σ) (now : Time.Instant) :
    (g.next now).2 = { g with source := (g.next now).2.source } := by
  obtain ⟨user, place, room, roll, s₁, s₂, s₃, s₄, -, -, -, -, hnext⟩ := g.exists_below
  rw [hnext now]

/-- **The next message is drawn**, and the generator goes on where its source has come to. -/
theorem draws_next (g : MessageGenerator σ) (hrooms : g.rooms < narrowLimit)
    (hsize : g.pool.size < wideLimit) (now : Time.Instant) :
    g.Draws now (g.next now).1 (g.next now).2.source := by
  obtain ⟨user, place, room, roll, s₁, s₂, s₃, s₄, huser, hplace, hroom, hroll, hnext⟩ :=
    g.exists_below
  rw [hnext now]
  exact ⟨user, place, room, roll, s₁, s₂, s₃, picks_of_below (by decide) huser,
    picks_of_below hsize hplace, picks_of_below hrooms hroom, picks_of_below (by decide) hroll,
    rfl, rfl, rfl, rfl, rfl⟩

/-- **A message that is drawn is in range.** -/
theorem inRange_of_draws (h : g.Draws now item rest) (hg : g.rooms = max rooms 1)
    (hp : g.pool = .ofSize size) (hrooms : rooms < narrowLimit) (hsize : size < wideLimit) :
    item.InRange rooms size := by
  obtain ⟨user, place, room, roll, s₁, s₂, s₃, huser, hplace, hroom, hroll, hid, hbody, -, hkind,
    hr⟩ := h
  have huser : user < 100000 := huser.lt (by decide)
  have hplace : place < (ContentPool.ofSize size).size := hp ▸ hplace.lt g.pool.size_pos
  have hroom : room < max rooms 1 := by
    rw [hg] at hroom
    exact hroom.lt (by omega)
  have hfew : place < wideLimit := by
    rw [ContentPool.size_ofSize] at hplace
    unfold wideLimit at hsize ⊢
    omega
  have hnarrow : item.room < narrowLimit := by
    unfold narrowLimit at hrooms ⊢
    omega
  refine ⟨by omega, rfl, ?_, by omega, ⟨roll, hroll.lt (by decide), hkind⟩, ?_⟩
  · rw [hbody]
    exact ContentPool.body_mem_bodies hplace
  · intro hfirst hlast stamp
    obtain ⟨hpos, hshort⟩ := ContentPool.length_body hfew
    have hgood : item.Acceptable := by
      refine ⟨by omega, ?_, hfirst, hlast⟩
      rw [hbody]
      omega
    exact ⟨_, WorkItem.respond_of_acceptable hgood stamp hnarrow⟩

/-! ### Every message -/

/-- A generator that has made messages at some moments. -/
def after (moments : List Time.Instant) (g : MessageGenerator σ) : MessageGenerator σ :=
  moments.foldl (fun g now => (g.next now).2) g

/-- **A generator that goes on differs by its source only.** -/
theorem exists_after (moments : List Time.Instant) (g : MessageGenerator σ) :
    ∃ s, g.after moments = { g with source := s } := by
  induction moments generalizing g with
  | nil => exact ⟨g.source, rfl⟩
  | cons now moments ih =>
    obtain ⟨s, hs⟩ := ih (g.next now).2
    rw [snd_next] at hs
    exact ⟨s, by rw [after, List.foldl_cons, snd_next]; exact hs⟩

/-- **Every generated message is in range**, whatever words the source delivers and however many
messages came before. It is drawn by four choices, each of which is computed without loss. -/
theorem inRange_after (source : σ) (hrooms : rooms < narrowLimit) (hsize : size < wideLimit)
    (moments : List Time.Instant) (now : Time.Instant) :
    let g := (create rooms (.ofSize size) source).after moments
    (g.next now).1.InRange rooms size ∧ g.Draws now (g.next now).1 (g.next now).2.source ∧
      g.pool = .ofSize size ∧ g.rooms = max rooms 1 ∧
      Exact .narrow greatestUser ∧ Exact .wide g.pool.size ∧ Exact .narrow g.rooms ∧
      Exact .narrow 100 := by
  intro g
  obtain ⟨s, hs⟩ := exists_after moments (create rooms (.ofSize size) source)
  have hpool : g.pool = .ofSize size := congrArg MessageGenerator.pool hs
  have hg : g.rooms = max rooms 1 := congrArg MessageGenerator.rooms hs
  have hfew : g.rooms < narrowLimit := by
    rw [hg]
    exact Nat.max_lt.mpr ⟨hrooms, by decide⟩
  have hbodies : g.pool.size < wideLimit := by
    rw [hpool]
    exact Nat.max_lt.mpr ⟨hsize, by decide⟩
  have hpos : 0 < g.rooms := by
    rw [hg]
    exact Nat.lt_of_lt_of_le Nat.one_pos (Nat.le_max_right _ _)
  have hdraws := g.draws_next hfew hbodies now
  refine ⟨inRange_of_draws hdraws hg hpool hrooms hsize, hdraws, hpool, hg, ?_, ?_, ?_, ?_⟩
  · exact exact_of_lt (by decide) (by decide)
  · exact exact_of_lt g.pool.size_pos hbodies
  · exact exact_of_lt hpos hfew
  · exact exact_of_lt (by decide) (by decide)

/-- The greatest number of rooms and no bodies, where the words are such that the first one and the one
before the last are passed over and every choice yields the greatest number it can. -/
theorem inRange_after_greatest :
    let words : List UInt32 :=
      [4294967295, 4294924347, 4294967295, 2147483647, 4294967295, 4294967295, 4252017624]
    let source : WordStream := { word := fun i => words.getD i 0, place := 0 }
    let g := create 4294967295 (.ofSize 0) source
    let item := (g.next { seconds := 253402300799, nanos := 0 }).1
    4294967295 < narrowLimit ∧ 0 < wideLimit ∧ item.InRange 4294967295 0 ∧
      ¬Taken .narrow greatestUser 4294967295 ∧ item.userId = 100000 ∧ item.room = 4294967295 ∧
      item.kind = .leave ∧ item.createdAt.year = 9999 := by
  intro words source g item
  have hrooms : 4294967295 < narrowLimit := by decide
  have hsize : 0 < wideLimit := by decide
  refine ⟨hrooms, hsize, (inRange_after source hrooms hsize [] _).1, ?_, ?_, ?_, ?_, ?_⟩
  · unfold Taken
    decide
  · decide +kernel
  · decide +kernel
  · decide +kernel
  · decide +kernel

end MessageGenerator

end LoadRig
