import LoadRig.Proofs.Statistics.Order
/-!
# What the statistics say of a room

There is one entry for each room that some record names, and it counts the records that do.

## Main results

* `LoadRig.Keyed.filter_eq_get?` — the entries with one key.
* `LoadRig.RecordSet.messages_of_room` — the messages in the entries of a room.
-/

namespace LoadRig

/-- An ordered list has one entry with a key at most, and it is the one that is found. -/
theorem Keyed.filter_eq_get? {κ α : Type} [DecidableEq κ] {before : κ → κ → Bool}
    (hb : Strict before) (key : κ) {es : List (κ × α)} (h : Ordered before es) :
    es.filter (fun e => e.1 == key) = ((get? key es).map fun v => (key, v)).toList := by
  induction es with
  | nil => rfl
  | cons e es ih =>
    obtain ⟨hhead, htail⟩ := List.pairwise_cons.mp h
    by_cases hk : e.1 = key
    · subst hk
      rw [List.filter_cons_of_pos (by simp), ih htail, get?_eq_none hb hhead, get?, if_pos rfl]
      rfl
    · rw [List.filter_cons_of_neg (by simpa using hk), ih htail, get?, if_neg hk]

/-- A room has as many messages as there were records to extend it. -/
theorem RoomSpan.messages_foldl (rs : List SampleRecord) :
    (rs.foldl (fun v r => some (extend r.sentAt v)) none).map RoomSpan.messages
      = if rs.length = 0 then none else some rs.length := by
  induction rs using List.reverseRecOn with
  | nil => rfl
  | append_singleton rs r ih =>
    rw [List.foldl_append, List.length_append, List.length_singleton, if_neg (Nat.succ_ne_zero _)]
    simp only [List.foldl_cons, List.foldl_nil, Option.map_some]
    cases hrs : rs.foldl (fun v r => some (extend r.sentAt v)) none with
    | none =>
      have hzero : rs.length = 0 := by
        by_contra hne
        simp [hrs, hne] at ih
      simp [extend, hzero]
    | some v =>
      have hlength : v.messages = rs.length := by
        rw [hrs, Option.map_some] at ih
        split at ih
        · cases ih
        · exact Option.some.inj ih
      simp [extend, hlength]

namespace RecordSet

/-- **The entry of a room counts the records that name it**; a room that no record names has none. -/
theorem messages_of_room (s : RecordSet) (room : Nat) :
    (s.roomThroughput.filter (·.room == room)).map (·.messages)
      = if s.records.countP (·.room == room) = 0 then []
        else [s.records.countP (·.room == room)] := by
  have hordered : Keyed.Ordered (fun a b => decide (a < b)) s.roomSpans :=
    Keyed.ordered_gather strict_rooms s.records
  have hvalue : (Keyed.get? room s.roomSpans).map RoomSpan.messages
      = if s.records.countP (·.room == room) = 0 then none
        else some (s.records.countP (·.room == room)) := by
    rw [roomSpans_eq_gather, Keyed.get?_gather strict_rooms, RoomSpan.messages_foldl,
      List.countP_eq_length_filter]
    rfl
  rw [roomThroughput, List.filter_map, List.map_map]
  show (s.roomSpans.filter fun e => e.1 == room).map (fun e => e.2.messages) = _
  have hone : ((Keyed.get? room s.roomSpans).map fun v => (room, v)).toList.map
      (fun e => e.2.messages) = ((Keyed.get? room s.roomSpans).map RoomSpan.messages).toList := by
    cases Keyed.get? room s.roomSpans <;> rfl
  rw [Keyed.filter_eq_get? strict_rooms room hordered, hone, hvalue]
  split <;> rfl

end RecordSet

end LoadRig
