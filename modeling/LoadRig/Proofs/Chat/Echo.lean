import LoadRig.Proofs.Chat.Wording
import LoadRig.Proofs.Json.RoundTrip
/-!
# An accepted message can be sent again

A reply holds the message that was accepted, and what it holds is accepted again and comes back without
a change. For its texts this is so whatever they are. The room may be any value, and its numbers must be
integers: a double comes back as the double that its digits denote, and whether that is the same one is
a question about digits and not about messages.

A room that came out of a sealed object is not always a room that can be written. It may be null, which
is no room when it is read; it may have more levels of brackets than a message has; and where the name
that seals an object was read behind other names and comes first when they are in order, the object is
sealed when it is written. Everything else comes back.

A message is written from its members that are there, in the order in which the service knows them. So
both ways, what is written and what is read of it, are a matter of one member at a time.

## Main definitions

* `LoadRig.ChatMessage.value?` — what a message says under a known name.
* `LoadRig.ChatMessage.Repeatable` — a message whose room can be written.
* `LoadRig.Reply.original?` — the text of the message in a reply.

## Main results

* `LoadRig.ChatMessage.parse?_encode` — the text of a message is read as this message.
* `LoadRig.respond_encode` — an accepted message is accepted again, if it can be repeated.
* `LoadRig.respond_encode_laterSeal` — a message that is accepted once only.
-/

namespace LoadRig

open LoadRig.Json

namespace ChatMessage

/-! ### Members by name -/

/-- The known members, in order. -/
def Field.all : List Field := [.userId, .username, .message, .timestamp, .messageType, .roomId]

/-- What a message says under a known name. -/
def value? (m : ChatMessage) : Field → Option Value
  | .userId => m.userId.map .string
  | .username => m.username.map .string
  | .message => m.message.map .string
  | .timestamp => m.timestamp.map .string
  | .messageType => m.messageType.map .string
  | .roomId => m.roomId

theorem members_eq (m : ChatMessage) :
    m.members = Field.all.filterMap fun f => (m.value? f).map (f.name.toList, ·) := by
  simp only [members, Field.all, value?, List.filterMap_cons, Option.map_map, id]
  rfl

/-- The members of a tree that has the given values under the known names. -/
def treeMembers (trees : Field → Option Tree) : List (List Piece × Tree) :=
  Field.all.filterMap fun f => (trees f).map (f.name.toList.map pieceOf, ·)

theorem Field.name_inj {f g : Field} : f.name = g.name ↔ f = g := by
  refine ⟨fun h => ?_, congrArg Field.name⟩
  cases f <;> cases g <;> first | rfl | exact absurd h (by decide)

/-- Known names have code units of their own. -/
theorem units_name_eq_iff {f g : Field} :
    units (g.name.toList.map pieceOf) = f.name.toList.flatMap codeUnits ↔ g = f := by
  rw [units_map_pieceOf, ← Field.name_inj, ← String.toList_inj]
  refine ⟨fun h => ?_, fun h => by rw [h]⟩
  have hread := congrArg ofUnits? h
  rw [ofUnits?_flatMap_codeUnits, ofUnits?_flatMap_codeUnits] at hread
  exact Option.some.inj hread

/-- Under each of several known names stands the value given for it. -/
theorem given_filterMap (trees : Field → Option Tree) (f : Field) {fs : List Field}
    (hfs : fs.Nodup) :
    given f (fs.filterMap fun g => (trees g).map (g.name.toList.map pieceOf, ·))
      = if f ∈ fs then (trees f).toList else [] := by
  rw [given]
  induction fs with
  | nil => rfl
  | cons g fs ih =>
    obtain ⟨hg, hfs⟩ := List.nodup_cons.mp hfs
    by_cases hgf : g = f
    · subst hgf
      have hrest := ih hfs
      rw [if_neg hg] at hrest
      cases ht : trees g with
      | none => simp [ht, hrest]
      | some t => simp [ht, valuesUnder_cons, units_name_eq_iff, hrest]
    · have hfg : f ≠ g := Ne.symm hgf
      cases ht : trees g with
      | none => simp [ht, ih hfs, hfg]
      | some t => simp [ht, valuesUnder_cons, units_name_eq_iff, ih hfs, hgf, hfg]

theorem given_treeMembers (trees : Field → Option Tree) (f : Field) :
    given f (treeMembers trees) = (trees f).toList := by
  rw [treeMembers, given_filterMap trees f (by decide), if_pos (by cases f <;> decide)]

theorem rel_map {α β γ δ : Type} {R : α → β → Prop} {S : γ → δ → Prop} {f : α → γ} {g : β → δ}
    (hfg : ∀ a b, R a b → S (f a) (g b)) {a : Option α} {b : Option β} (h : Option.Rel R a b) :
    Option.Rel S (a.map f) (b.map g) := by
  cases h with
  | none => exact .none
  | some h => exact .some (hfg _ _ h)

theorem rel_imp {α β : Type} {R S : α → β → Prop} (h : ∀ a b, R a b → S a b) {a : Option α}
    {b : Option β} (hab : Option.Rel R a b) : Option.Rel S a b := by
  cases hab with
  | none => exact .none
  | some hab => exact .some (h _ _ hab)

/-- The text of a message is spelled by trees that are spelled by the texts of its members. -/
theorem spelled_treeMembers {m : ChatMessage} {trees : Field → Option Tree}
    (h : ∀ f, Option.Rel WrittenAs (trees f) (m.value? f)) :
    WrittenAs (.object (treeMembers trees)) m.toValue := by
  rw [toValue, members_eq]
  refine spelled_object (List.rel_filterMap (R := Eq) ?_ (List.forall₂_refl _))
  rintro f _ rfl
  exact rel_map (fun _ _ ht => ⟨rfl, ht⟩) (h f)

/-! ### Reading what was written -/

/-- The trees of a message, with a tree for its room. -/
def trees (m : ChatMessage) (room : Option Tree) : Field → Option Tree
  | .userId => m.userId.map fun s => .string (s.map pieceOf)
  | .username => m.username.map fun s => .string (s.map pieceOf)
  | .message => m.message.map fun s => .string (s.map pieceOf)
  | .timestamp => m.timestamp.map fun s => .string (s.map pieceOf)
  | .messageType => m.messageType.map fun s => .string (s.map pieceOf)
  | .roomId => room

theorem only?_text (s : Option (List Char)) :
    only? textOf? (s.map fun s => Tree.string (s.map pieceOf)).toList = some s := by
  cases s with
  | none => rfl
  | some s => simp [only?, textOf?, decodePieces?_map_pieceOf]

/-- What a message with some room is read as. -/
theorem ofGiven?_trees (m : ChatMessage) (room : Option Tree) :
    ofGiven? (fun f => (m.trees room f).toList)
      = (only? valueOf? room.toList).map fun roomId => { m with roomId } := by
  simp only [ofGiven?, trees, only?_text, Option.bind_eq_bind, Option.bind_some]
  cases only? valueOf? room.toList <;> rfl

theorem named_treeMembers (trees : Field → Option Tree) : Named (treeMembers trees) := by
  intro m hm
  obtain ⟨f, -, hf⟩ := List.mem_filterMap.mp hm
  obtain ⟨t, -, rfl⟩ := Option.map_eq_some_iff.mp hf
  exact ⟨f.name.toList, units_map_pieceOf _⟩

theorem rel_text (s : Option (List Char)) :
    Option.Rel WrittenAs (s.map fun s => Tree.string (s.map pieceOf)) (s.map .string) := by
  cases s with
  | none => exact .none
  | some s => exact .some (.string (literal_quoted s))

/-- The room of a message, if there is one, is not null and can be read where it is written. -/
def Repeatable (m : ChatMessage) : Prop := ∀ v ∈ m.roomId, v ≠ .null ∧ v.Fits deepest

theorem exists_room {room : Option Value} (h : ∀ v ∈ room, v.Canonical) :
    ∃ t, Option.Rel ReadBack t room := by
  cases room with
  | none => exact ⟨none, .none⟩
  | some v =>
    obtain ⟨t, ht⟩ := (h v rfl).exists_tree
    exact ⟨some t, .some ht⟩

section Room

variable {m : ChatMessage} {room : Option Tree}

theorem padded_encode (h : Option.Rel ReadBack room m.roomId) :
    (Tree.object (treeMembers (m.trees room))).Padded m.encode := by
  have hspelled : WrittenAs (.object (treeMembers (m.trees room))) m.toValue := by
    refine spelled_treeMembers fun f => ?_
    cases f
    case roomId => exact rel_imp (fun _ _ ht => ht.written) h
    all_goals exact rel_text _
  exact hspelled.padded

/-- The text of a message is read as the message, as far as its room can be read. -/
theorem parse?_encode_eq (h : Option.Rel ReadBack room m.roomId) :
    parse? m.encode = (only? valueOf? room.toList).map fun roomId => { m with roomId } := by
  rw [parse?_object (padded_encode h) (named_treeMembers _)]
  simp only [given_treeMembers]
  exact ofGiven?_trees m room

/-- The text of a message tells whether it has a room. -/
theorem encode_ne_of_room {v : Value} (h : m.roomId = some v) {t : Tree} (ht : ReadBack t v) :
    ({ m with roomId := none } : ChatMessage).encode ≠ m.encode := by
  intro heq
  let without : ChatMessage := { m with roomId := none }
  have hpadded : (Tree.object (treeMembers (m.trees (some t)))).Padded m.encode :=
    padded_encode (h ▸ .some ht)
  have hpadded' : (Tree.object (treeMembers (without.trees none))).Padded without.encode :=
    padded_encode .none
  rw [heq] at hpadded'
  have hmembers := congrArg (given .roomId) (Tree.object.inj (hpadded'.unique hpadded))
  rw [given_treeMembers, given_treeMembers] at hmembers
  cases hmembers

end Room

/-- **The text of a message is read as this message**, if it can be repeated. -/
theorem parse?_encode {m : ChatMessage} (h : ∀ v ∈ m.roomId, v.Canonical) (hm : m.Repeatable) :
    parse? m.encode = some m := by
  obtain ⟨room, hrel⟩ := exists_room h
  have hroom : only? valueOf? room.toList = some m.roomId := by
    cases hv : m.roomId with
    | none =>
      rw [hv] at hrel
      cases hrel
      rfl
    | some v =>
      obtain ⟨hne, hfits⟩ := hm v hv
      rw [hv] at hrel
      cases hrel with
      | @some t _ ht =>
        have hread := ht.read hfits
        have hnull : t ≠ .null := by
          rintro rfl
          exact hne (Option.some.inj hread).symm
        rw [Option.toList_some, only?, valueOf?_of_ne_null hnull, hread]
        rfl
  rw [parse?_encode_eq hrel, hroom]
  rfl

/-- A message can be repeated if its text is read as a message that has the same text. -/
theorem repeatable_of_parse?_encode {m m' : ChatMessage} (h : ∀ v ∈ m.roomId, v.Canonical)
    (hread : parse? m.encode = some m') (htext : m'.encode = m.encode) : m.Repeatable := by
  obtain ⟨room, hrel⟩ := exists_room h
  rw [parse?_encode_eq hrel] at hread
  obtain ⟨roomId, hroom, rfl⟩ := Option.map_eq_some_iff.mp hread
  intro v hv
  rw [hv] at hrel
  cases hrel with
  | @some t _ ht =>
    by_cases hnull : t = .null
    · subst hnull
      obtain rfl : none = roomId := Option.some.inj hroom
      exact absurd htext (encode_ne_of_room hv ht)
    · rw [Option.toList_some, only?, valueOf?_of_ne_null hnull] at hroom
      obtain ⟨w, hw, -⟩ := Option.map_eq_some_iff.mp hroom
      refine ⟨?_, ht.fits hw⟩
      rintro rfl
      exact hnull (ht.written.padded.unique Tree.Spelled.null.padded)

/-! ### What was read -/

/-- A room that was read stood in the text as some tree. -/
theorem room_of_valueOf? {t : Tree} {v : Value} (h : valueOf? t = some (some v)) :
    Value.ofTree? deepest t = some v := by
  have ht : t ≠ .null := by
    rintro rfl
    cases h
  rw [valueOf?_of_ne_null ht] at h
  obtain ⟨v', hv, heq⟩ := Option.map_eq_some_iff.mp h
  rw [hv, Option.some.inj heq]

theorem room_of_ofTree? {t : Tree} {m : ChatMessage} (h : ofTree? t = some m) {v : Value}
    (hv : v ∈ m.roomId) : ∃ t, Value.ofTree? deepest t = some v := by
  rw [ofTree?.eq_def] at h
  split at h
  · simp only [Option.bind_eq_bind, Option.bind_eq_some_iff] at h
    obtain ⟨named, -, _, -, _, -, _, -, _, -, _, -, room, hroom, h⟩ := h
    obtain rfl := Option.some.inj h
    obtain rfl : room = some v := hv
    rw [member?] at hroom
    split at hroom
    · cases hroom
    · exact ⟨_, room_of_valueOf? hroom⟩
    · cases hroom
  · simp only [Option.bind_eq_bind, Option.bind_eq_some_iff] at h
    obtain ⟨_, -, _, -, _, -, _, -, _, -, room, hroom, h⟩ := h
    obtain rfl := Option.some.inj h
    obtain rfl : room = some v := hv
    exact ⟨_, room_of_valueOf? hroom⟩
  · cases h

/-- The room of a message that was read is canonical, if its numbers are whole. -/
theorem canonical_of_parse? {payload : List Char} {m : ChatMessage} (h : parse? payload = some m)
    (hroom : ∀ v ∈ m.roomId, v.Whole) : ∀ v ∈ m.roomId, v.Canonical := by
  intro v hv
  obtain ⟨t, -, ht⟩ := Option.bind_eq_some_iff.mp h
  obtain ⟨u, hu⟩ := room_of_ofTree? ht hv
  exact Value.canonical_of_ofTree? hu (hroom v hv)

end ChatMessage

/-! ### Replies -/

/-- The text of the message in a reply, if there is one. -/
def Reply.original? (r : Reply) : Option (List Char) :=
  (r.toValue.member? "originalMessage").map Value.compact

theorem Reply.original?_ok (stamp : List Char) (m : ChatMessage) :
    (Reply.ok stamp m).original? = some m.encode := by
  rfl

theorem Reply.exists_of_original? {r : Reply} {cs : List Char} (h : r.original? = some cs) :
    ∃ stamp m, r = .ok stamp m ∧ m.encode = cs := by
  cases r with
  | ok stamp m => exact ⟨stamp, m, rfl, Option.some.inj h⟩
  | error => cases h

theorem respond_eq_ok_iff {stamp stamp' payload : List Char} {m : ChatMessage} :
    respond stamp payload = .ok stamp' m ↔
      stamp' = stamp ∧ ChatMessage.parse? payload = some m ∧ m.fault? = none := by
  rw [respond]
  cases ChatMessage.parse? payload with
  | none => simp
  | some m' =>
    cases hfault : m'.fault? with
    | some f =>
      simp only [hfault, reduceCtorEq, Option.some.injEq, false_iff, not_and]
      rintro - rfl
      simp [hfault]
    | none =>
      simp only [hfault, Reply.ok.injEq, Option.some.injEq]
      constructor
      · rintro ⟨rfl, rfl⟩
        exact ⟨rfl, rfl, hfault⟩
      · rintro ⟨rfl, rfl, -⟩
        exact ⟨rfl, rfl⟩

/-- **An accepted message is accepted again.** If the numbers in its room are integers, the text of the
message in the reply, sent to the service, is accepted with a reply that holds the same text again,
exactly if the message can be repeated; and then it is read as it was. -/
theorem respond_encode {stamp payload : List Char} {m : ChatMessage}
    (h : respond stamp payload = .ok stamp m) (hroom : ∀ v ∈ m.roomId, v.Whole)
    (stamp' : List Char) :
    (respond stamp payload).original? = some m.encode ∧
      ((respond stamp' m.encode).original? = some m.encode ↔ m.Repeatable) ∧
      (m.Repeatable → respond stamp' m.encode = .ok stamp' m) := by
  obtain ⟨-, hread, hfault⟩ := respond_eq_ok_iff.mp h
  have hcanonical := ChatMessage.canonical_of_parse? hread hroom
  have hagain (hm : m.Repeatable) : respond stamp' m.encode = .ok stamp' m :=
    respond_eq_ok_iff.mpr ⟨rfl, ChatMessage.parse?_encode hcanonical hm, hfault⟩
  refine ⟨h ▸ Reply.original?_ok stamp m, ⟨fun horiginal => ?_, fun hm => ?_⟩, hagain⟩
  · obtain ⟨_, m', hm', htext⟩ := Reply.exists_of_original? horiginal
    exact ChatMessage.repeatable_of_parse?_encode hcanonical (respond_eq_ok_iff.mp hm').2.1 htext
  · rw [hagain hm]
    exact Reply.original?_ok stamp' m

/-- A message whose room is an object with a repeated name, its names out of order, and a sealed object
in it. -/
def nestedPayload : List Char :=
  ("\x7b\"roomId\": \x7b\"b\": [1], \"a\": \x7b\"$serde_json::private::RawValue\": \" [-2, null]\"\x7d," ++
    "\"b\": 3\x7d, \"messageType\": \"LEAVE\"," ++
    "\"timestamp\": \"2025-01-01T12:00:00Z\", \"message\": \"\\u0041\\u0001\"," ++
    "\"username\": \"bob\", \"userId\": \"7\"\x7d").toList

/-- A message with a room. -/
def messageIn (room : Value) : ChatMessage :=
  { userId := some ['7']
    username := some ['b', 'o', 'b']
    message := some ['A', '\x01']
    timestamp := some "2025-01-01T12:00:00Z".toList
    messageType := some "LEAVE".toList
    roomId := some room }

/-- What is read of the room. -/
def nestedRoom : Value := .object [(['a'], .array [.int (-2), .null]), (['b'], .int 3)]

theorem whole_nestedRoom : nestedRoom.Whole := by
  refine .object ?_
  simp only [List.mem_cons, List.not_mem_nil, or_false]
  rintro r (rfl | rfl)
  · refine .array ?_
    simp only [List.mem_cons, List.not_mem_nil, or_false]
    rintro v (rfl | rfl)
    · exact .int (by decide) (by decide)
    · exact .null
  · exact .int (by decide) (by decide)

theorem fits_nestedRoom : nestedRoom.Fits deepest := by
  refine .object ?_ ?_
  · rintro r ⟨⟩
    decide
  simp only [List.mem_cons, List.not_mem_nil, or_false]
  rintro r (rfl | rfl)
  · refine .array ?_
    simp only [List.mem_cons, List.not_mem_nil, or_false]
    rintro v (rfl | rfl)
    · exact .int _ _
    · exact .null _
  · exact .int _ _

theorem respond_nestedPayload :
    respond ['a'] nestedPayload = .ok ['a'] (messageIn nestedRoom) := by
  cbv

/-- It comes back as it was read, once and again. -/
theorem respond_encode_nested :
    respond ['a'] nestedPayload = .ok ['a'] (messageIn nestedRoom) ∧
      (∀ v ∈ (messageIn nestedRoom).roomId, v.Whole) ∧ (messageIn nestedRoom).Repeatable ∧
      respond ['b'] (messageIn nestedRoom).encode = .ok ['b'] (messageIn nestedRoom) ∧
      (respond ['b'] (messageIn nestedRoom).encode).original?
        = some (messageIn nestedRoom).encode := by
  have hwhole : ∀ v ∈ (messageIn nestedRoom).roomId, v.Whole := by
    rintro _ ⟨⟩
    exact whole_nestedRoom
  have hrepeatable : (messageIn nestedRoom).Repeatable := by
    rintro _ ⟨⟩
    exact ⟨Value.noConfusion, fits_nestedRoom⟩
  obtain ⟨-, horiginal, hagain⟩ := respond_encode respond_nestedPayload hwhole ['b']
  exact ⟨respond_nestedPayload, hwhole, hrepeatable, hagain hrepeatable,
    horiginal.mpr hrepeatable⟩

/-- A message whose room has two names, of which the second is the one that seals. -/
def laterSealPayload : List Char :=
  ("\x7b\"userId\": \"7\", \"username\": \"bob\", \"message\": \"A\\u0001\"," ++
    "\"timestamp\": \"2025-01-01T12:00:00Z\", \"messageType\": \"LEAVE\"," ++
    "\"roomId\": \x7b\"a\": 0, \"$serde_json::private::RawValue\": \"1\"\x7d\x7d").toList

/-- What is read of the room. -/
def laterSealRoom : Value := .object [(sealName, .string ['1']), (['a'], .int 0)]

/-- The text of the message: the name that seals has come first. -/
def laterSealText : List Char :=
  ("\x7b\"userId\":\"7\",\"username\":\"bob\",\"message\":\"A\\u0001\"," ++
    "\"timestamp\":\"2025-01-01T12:00:00Z\",\"messageType\":\"LEAVE\"," ++
    "\"roomId\":\x7b\"$serde_json::private::RawValue\":\"1\",\"a\":0\x7d\x7d").toList

theorem respond_laterSealPayload :
    respond ['a'] laterSealPayload = .ok ['a'] (messageIn laterSealRoom) := by
  cbv

theorem encode_laterSealRoom : (messageIn laterSealRoom).encode = laterSealText := by
  cbv

theorem respond_laterSealText : respond ['b'] laterSealText = .error malformed := by
  cbv

/-- **An accepted message need not be accepted again.** The names in the room of a reply are in order,
and so the one that seals an object can come first there. -/
theorem respond_encode_laterSeal :
    respond ['a'] laterSealPayload = .ok ['a'] (messageIn laterSealRoom) ∧
      (∀ v ∈ (messageIn laterSealRoom).roomId, v.Whole) ∧
      (respond ['a'] laterSealPayload).original? = some laterSealText ∧
      respond ['b'] laterSealText = .error malformed := by
  refine ⟨respond_laterSealPayload, ?_, ?_, respond_laterSealText⟩
  · rintro _ ⟨⟩
    refine .object ?_
    simp only [List.mem_cons, List.not_mem_nil, or_false]
    rintro r (rfl | rfl)
    · exact .string _
    · exact .int (by decide) (by decide)
  · rw [respond_laterSealPayload, Reply.original?_ok, encode_laterSealRoom]

end LoadRig
