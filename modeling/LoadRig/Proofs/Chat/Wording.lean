import LoadRig.Chat.Reply
import LoadRig.Proofs.Json.Alike
import LoadRig.Proofs.Json.Recognition
import Mathlib
/-!
# The wording of a message makes no difference

The service replies to what a message says and not to how it is worded. Whoever sends an object with the
same known members gets the same reply, whatever the order of the members, the blanks between them, the
spelling of names and strings, and the other members that stand among them.

Of those other members only the names are looked at: each must be a text. A name with a lone surrogate
is the one thing in a member that nobody asked for by which a message can fail, however well the text
follows the grammar. And inside the room, the name that seals an object may not be moved to the first
place of its object or away from there.

## Main definitions

* `LoadRig.ChatMessage.Field` — the known members.
* `LoadRig.ChatMessage.KnownAlike` — two lists of members say the same under the known names.
* `LoadRig.ChatMessage.Named` — every name is a text.

## Main results

* `LoadRig.ChatMessage.ofTree?_object` — a message is made of its known members.
* `LoadRig.respond_of_knownAlike` — the reply depends on nothing else.
-/

namespace LoadRig

open LoadRig.Json

namespace ChatMessage

/-- The members that the service knows. -/
inductive Field where
  | userId
  | username
  | message
  | timestamp
  | messageType
  | roomId
deriving DecidableEq, Repr

/-- The name of a known member. -/
def Field.name : Field → String
  | userId => "userId"
  | username => "username"
  | message => "message"
  | timestamp => "timestamp"
  | messageType => "messageType"
  | roomId => "roomId"

/-- The values that stand under the name of a known member, however it is spelled. -/
def given (f : Field) (ms : List (List Piece × Tree)) : List Tree :=
  valuesUnder (f.name.toList.flatMap codeUnits) ms

/-- Two lists of members say the same under the known names, with seals kept or not. -/
def KnownAlike (kept : Bool) (ms ns : List (List Piece × Tree)) : Prop :=
  ∀ f, List.Forall₂ (Tree.Alike kept) (given f ms) (given f ns)

/-- Every member has a text for a name. -/
def Named (ms : List (List Piece × Tree)) : Prop :=
  ∀ m ∈ ms, ∃ name : List Char, units m.1 = name.flatMap codeUnits

/-! ### A message is made of its known members -/

/-- What is read of a known member from all that stands under its name: it may stand there once or not
at all. -/
def only? {α : Type} (read? : Tree → Option (Option α)) : List Tree → Option (Option α)
  | [] => some none
  | [t] => read? t
  | _ => none

theorem only?_eq_of_map_eq {α : Type} {read? : Tree → Option (Option α)} {ts us : List Tree}
    (h : ts.map read? = us.map read?) : only? read? ts = only? read? us := by
  match ts, us, h with
  | [], [], _ => rfl
  | [_], [_], h => exact (List.cons.inj h).1
  | _ :: _ :: _, _ :: _ :: _, _ => rfl
  | [_], _ :: _ :: _, h => simp at h
  | _ :: _ :: _, [_], h => simp at h

/-- The message that is read off known members. -/
def ofGiven? (given : Field → List Tree) : Option ChatMessage := do
  let userId ← only? textOf? (given .userId)
  let username ← only? textOf? (given .username)
  let message ← only? textOf? (given .message)
  let timestamp ← only? textOf? (given .timestamp)
  let messageType ← only? textOf? (given .messageType)
  let roomId ← only? valueOf? (given .roomId)
  return { userId, username, message, timestamp, messageType, roomId }

theorem namesOf?_eq (ms : List (List Piece × Tree)) : namesOf? ms = ms.mapM (readMember? some) := by
  refine congrArg ms.mapM (funext fun ⟨name, t⟩ => ?_)
  show (decodePieces? name).map (·, t) = (decodePieces? name).bind fun name => some (name, t)
  exact Option.map_eq_bind ..

/-- The names of all members can be read exactly if they are texts. -/
theorem exists_namesOf?_iff {ms : List (List Piece × Tree)} (hms : (Tree.object ms).Spellable) :
    (∃ named, namesOf? ms = some named) ↔ Named ms := by
  rw [namesOf?_eq, exists_mapM_eq_some_iff]
  refine forall₂_congr fun m hm => ?_
  obtain ⟨lit, hlit⟩ := (hms.members m hm).1
  constructor
  · rintro ⟨r, hr⟩
    exact ⟨r.1, hlit.decodePieces?_eq_some_iff.mp (readMember?_eq_some_iff.mp hr).1⟩
  · rintro ⟨name, hname⟩
    exact ⟨(name, m.2), readMember?_eq_some_iff.mpr ⟨decodePieces?_of_units hname, rfl⟩⟩

theorem member?_eq {α : Type} (read? : Tree → Option (Option α)) (f : Field)
    {ms : List (List Piece × Tree)} {named : List (List Char × Tree)}
    (hnames : ∀ m ∈ ms, ∃ lit, Literal m.1 lit) (h : namesOf? ms = some named) :
    member? read? f.name named = only? read? (given f ms) := by
  have hunder : readUnder f.name.toList named = given f ms := by
    rw [readUnder_eq hnames (namesOf?_eq ms ▸ h), List.filterMap_some, given]
  rw [member?, ← hunder, readUnder]
  simp only [beq_eq_decide]
  generalize named.filter (fun r => r.1 = f.name.toList) = found
  rcases found with _ | ⟨r, _ | ⟨r', found⟩⟩ <;> rfl

/-- **A message is made of its known members**, if every member has a text for a name. -/
theorem ofTree?_object {ms : List (List Piece × Tree)} (hms : (Tree.object ms).Spellable)
    (hnamed : Named ms) : ofTree? (.object ms) = ofGiven? (given · ms) := by
  obtain ⟨named, hread⟩ := (exists_namesOf?_iff hms).mpr hnamed
  have hmember {α : Type} (read? : Tree → Option (Option α)) (f : Field) :
      member? read? f.name named = only? read? (given f ms) :=
    member?_eq read? f (fun m hm => (hms.members m hm).1) hread
  rw [ofTree?, hread, ofGiven?, ← hmember, ← hmember, ← hmember, ← hmember, ← hmember, ← hmember]
  rfl

/-- Where a name is no text, no message is read. -/
theorem ofTree?_object_of_not_named {ms : List (List Piece × Tree)}
    (hms : (Tree.object ms).Spellable) (hnamed : ¬ Named ms) : ofTree? (.object ms) = none := by
  cases hread : namesOf? ms with
  | none => rw [ofTree?, hread]; rfl
  | some named => exact absurd ((exists_namesOf?_iff hms).mp ⟨named, hread⟩) hnamed

/-! ### Known members that are alike -/

theorem textOf?_eq_of_alike {kept : Bool} {t u : Tree} (h : t.Alike kept u) :
    textOf? t = textOf? u := by
  cases h with
  | string h => rw [textOf?, textOf?, decodePieces?_eq_ofUnits?, h, ← decodePieces?_eq_ofUnits?]
  | _ => rfl

theorem valueOf?_of_ne_null {t : Tree} (h : t ≠ .null) :
    valueOf? t = (Value.ofTree? deepest t).map some := by
  cases t with
  | null => exact absurd rfl h
  | _ => rfl

theorem valueOf?_eq_of_alike {t u : Tree} (h : t.Alike true u) (ht : t.Spellable)
    (hu : u.Spellable) : valueOf? t = valueOf? u := by
  by_cases hnull : t = .null
  · subst hnull
    cases h
    rfl
  · have hnull' : u ≠ .null := by
      rintro rfl
      cases h
      exact hnull rfl
    rw [valueOf?_of_ne_null hnull, valueOf?_of_ne_null hnull', h.ofTree?_eq ht hu]

/-- Members that say the same under the known names make the same message. -/
theorem ofGiven?_eq {ms ns : List (List Piece × Tree)} (hms : (Tree.object ms).Spellable)
    (hns : (Tree.object ns).Spellable) (h : KnownAlike true ms ns) :
    ofGiven? (given · ms) = ofGiven? (given · ns) := by
  have htext (f : Field) : only? textOf? (given f ms) = only? textOf? (given f ns) :=
    only?_eq_of_map_eq (map_eq_of_forall₂ (h f) fun _ _ _ _ halike => textOf?_eq_of_alike halike)
  have hvalue (f : Field) : only? valueOf? (given f ms) = only? valueOf? (given f ns) := by
    refine only?_eq_of_map_eq (map_eq_of_forall₂ (h f) fun t ht u hu halike => ?_)
    obtain ⟨m, hm, -, rfl⟩ := mem_valuesUnder.mp ht
    obtain ⟨n, hn, -, rfl⟩ := mem_valuesUnder.mp hu
    exact valueOf?_eq_of_alike halike (hms.members m hm).2 (hns.members n hn).2
  simp only [ofGiven?, htext, hvalue]

theorem parse?_object {ms : List (List Piece × Tree)} {cs : List Char}
    (h : (Tree.object ms).Padded cs) (hnamed : Named ms) : parse? cs = ofGiven? (given · ms) := by
  rw [parse?, parse?_of_padded h, Option.bind_some, ofTree?_object h.spellable hnamed]

end ChatMessage

/-! ### Replies -/

open ChatMessage

/-- A reply with another time in place of its own, if it has one. -/
def Reply.stampedAt (stamp : List Char) : Reply → Reply
  | .ok _ m => .ok stamp m
  | .error reason => .error reason

theorem respond_stampedAt (stamp stamp' payload : List Char) :
    (respond stamp payload).stampedAt stamp' = respond stamp' payload := by
  rw [respond, respond]
  cases ChatMessage.parse? payload with
  | none => rfl
  | some m =>
    simp only
    cases m.fault? <;> rfl

/-- **The wording of a message makes no difference.** Two object texts that say the same under the known
names, with seals kept, and in which every name is a text, get the same reply, apart from its time. -/
theorem respond_of_knownAlike {ms ns : List (List Piece × Tree)} {cs cs' : List Char}
    (hcs : (Tree.object ms).Padded cs) (hcs' : (Tree.object ns).Padded cs') (hms : Named ms)
    (hns : Named ns) (h : KnownAlike true ms ns) (stamp stamp' : List Char) :
    respond stamp' cs' = (respond stamp cs).stampedAt stamp' := by
  have hparse : ChatMessage.parse? cs' = ChatMessage.parse? cs := by
    rw [parse?_object hcs hms, parse?_object hcs' hns, ofGiven?_eq hcs.spellable hcs'.spellable h]
  rw [respond_stampedAt, respond, respond, hparse]

/-! ### A message in two wordings -/

/-- A message without blanks, its members in the usual order. -/
def plainGreeting : List Char :=
  ("\x7b\"userId\":\"7\",\"username\":\"bob\",\"message\":\"A\",\"timestamp\":\"2025-01-01T12:00:00Z\"," ++
    "\"messageType\":\"JOIN\",\"roomId\":[1]\x7d").toList

/-- The same message in another order, with blanks, with escapes in a name and in a string, and with
members of a name that is not known. -/
def wordyGreeting : List Char :=
  (" \x7b\"x\":[1e999], \"roomId\" : [ 1 ],\"message\":\"\\u0041\",\"username\":\"bob\",\"x\":\x7b\x7d,\n" ++
    "\"messageType\":\"JOIN\",\"timestamp\":\"2025-01-01T12:00:00Z\",\"user\\u0049d\":\"7\"\x7d").toList

/-- The items of a literal without escapes. -/
def plain (s : String) : List Piece := s.toList.map .char

/-- The members of the plain wording. -/
def plainMembers : List (List Piece × Tree) :=
  [(plain "userId", .string (plain "7")), (plain "username", .string (plain "bob")),
    (plain "message", .string (plain "A")),
    (plain "timestamp", .string (plain "2025-01-01T12:00:00Z")),
    (plain "messageType", .string (plain "JOIN")),
    (plain "roomId", .array [.number ⟨false, ['1'], none, none⟩])]

/-- The members of the other wording. -/
def wordyMembers : List (List Piece × Tree) :=
  [(plain "x", .array [.number ⟨false, ['1'], none, some 999⟩]),
    (plain "roomId", .array [.number ⟨false, ['1'], none, none⟩]),
    (plain "message", .string [.unit 0x41]), (plain "username", .string (plain "bob")),
    (plain "x", .object []), (plain "messageType", .string (plain "JOIN")),
    (plain "timestamp", .string (plain "2025-01-01T12:00:00Z")),
    (plain "user" ++ .unit 0x49 :: plain "d", .string (plain "7"))]

theorem knownAlike_greetings : KnownAlike true plainMembers wordyMembers := by
  intro f
  cases f
  all_goals refine .cons ?_ .nil
  case roomId => exact .array (.cons (.number _) .nil)
  all_goals exact .string (by decide)

theorem padded_plainGreeting : (Tree.object plainMembers).Padded plainGreeting :=
  parse?_eq_some_iff.mp (by cbv)

theorem padded_wordyGreeting : (Tree.object wordyMembers).Padded wordyGreeting :=
  parse?_eq_some_iff.mp (by cbv)

theorem named_greetings : Named plainMembers ∧ Named wordyMembers := by
  constructor
  · exact (exists_namesOf?_iff padded_plainGreeting.spellable).mp
      (Option.isSome_iff_exists.mp (by decide))
  · exact (exists_namesOf?_iff padded_wordyGreeting.spellable).mp
      (Option.isSome_iff_exists.mp (by decide))

/-- Both wordings get the same reply. -/
theorem respond_wordyGreeting :
    (Tree.object plainMembers).Padded plainGreeting ∧
      (Tree.object wordyMembers).Padded wordyGreeting ∧
      Named plainMembers ∧ Named wordyMembers ∧ KnownAlike true plainMembers wordyMembers ∧
      respond ['b'] wordyGreeting = (respond ['a'] plainGreeting).stampedAt ['b'] :=
  ⟨padded_plainGreeting, padded_wordyGreeting, named_greetings.1, named_greetings.2,
    knownAlike_greetings,
    respond_of_knownAlike padded_plainGreeting padded_wordyGreeting named_greetings.1 named_greetings.2
      knownAlike_greetings ['a'] ['b']⟩

/-! ### Wordings that make a difference -/

/-- A member that nobody asked for, with a lone surrogate for a name. -/
def strangeMembers : List (List Piece × Tree) :=
  [([.unit 0xD800], .number ⟨false, ['0'], none, none⟩)]

theorem padded_strangeMembers :
    (Tree.object strangeMembers).Padded "\x7b\"\\ud800\":0\x7d".toList :=
  parse?_eq_some_iff.mp (by cbv)

theorem not_named_strangeMembers : ¬ Named strangeMembers := by
  intro h
  obtain ⟨named, hnamed⟩ := (exists_namesOf?_iff padded_strangeMembers.spellable).mpr h
  cases hnamed

/-- A room in which a member has the name that seals, but not in the first place. -/
def looseRoom : List (List Piece × Tree) :=
  [(plain "a", .number ⟨false, ['0'], none, none⟩), (sealName.map .char, .string (plain "1"))]

/-- The members of a message that says nothing but its room. -/
def roomMembers (room : List (List Piece × Tree)) : List (List Piece × Tree) :=
  [(plain "roomId", .object room)]

theorem named_roomMembers (room : List (List Piece × Tree)) : Named (roomMembers room) := by
  intro m hm
  obtain rfl := List.mem_singleton.mp hm
  have hname : units (plain "roomId") = "roomId".toList.flatMap codeUnits := by decide
  exact ⟨_, hname⟩

theorem padded_looseRoom : (Tree.object (roomMembers looseRoom)).Padded
    "\x7b\"roomId\":\x7b\"a\":0,\"$serde_json::private::RawValue\":\"1\"\x7d\x7d".toList :=
  parse?_eq_some_iff.mp (by cbv)

/-- The same room with its members in the other order. -/
theorem padded_sealedRoom : (Tree.object (roomMembers looseRoom.reverse)).Padded
    "\x7b\"roomId\":\x7b\"$serde_json::private::RawValue\":\"1\",\"a\":0\x7d\x7d".toList :=
  parse?_eq_some_iff.mp (by cbv)

theorem knownAlike_looseRoom :
    KnownAlike false (roomMembers looseRoom) (roomMembers looseRoom.reverse) := by
  intro f
  cases f
  case roomId =>
    refine .cons (.object (fun us => ?_) fun h => absurd h Bool.false_ne_true) .nil
    have hswap : valuesUnder us looseRoom = valuesUnder us looseRoom.reverse :=
      valuesUnder_swap (by decide) us
    exact hswap ▸ List.forall₂_same.mpr fun t _ => .refl false t
  all_goals exact .nil

/-- **A name that is no text makes a difference**, though nothing is known by it, and so does a seal that
was moved, though all members are the same. The texts follow the grammar. -/
theorem respond_strangeMembers :
    (¬ ∀ (ms ns : List (List Piece × Tree)) (cs cs' stamp stamp' : List Char),
      (Tree.object ms).Padded cs → (Tree.object ns).Padded cs' → KnownAlike true ms ns →
        respond stamp' cs' = (respond stamp cs).stampedAt stamp') ∧
    ¬ ∀ (ms ns : List (List Piece × Tree)) (cs cs' stamp stamp' : List Char),
      (Tree.object ms).Padded cs → (Tree.object ns).Padded cs' → Named ms → Named ns →
        KnownAlike false ms ns → respond stamp' cs' = (respond stamp cs).stampedAt stamp' := by
  have hdiffer : Reply.error malformed ≠ .error "userId is required" := fun h =>
    absurd (Reply.error.inj h) (by decide)
  constructor
  · intro hall
    have hempty : (Tree.object []).Padded ['\x7b', '\x7d'] := parse?_eq_some_iff.mp (by cbv)
    have halike : KnownAlike true [] strangeMembers := by
      intro f
      cases f <;> exact .nil
    have heq := hall _ _ _ _ [] [] hempty padded_strangeMembers halike
    rw [respond, ChatMessage.parse?, parse?_of_padded padded_strangeMembers, Option.bind_some,
      ofTree?_object_of_not_named padded_strangeMembers.spellable not_named_strangeMembers,
      respond, parse?_object hempty (by simp [Named])] at heq
    exact hdiffer heq
  · intro hall
    have heq := hall _ _ _ _ [] [] padded_looseRoom padded_sealedRoom (named_roomMembers _)
      (named_roomMembers _) knownAlike_looseRoom
    rw [respond, parse?_object padded_sealedRoom (named_roomMembers _), respond,
      parse?_object padded_looseRoom (named_roomMembers _)] at heq
    exact hdiffer heq

end LoadRig
