import LoadRig.Chat.Sessions
import Mathlib.Data.List.Dedup
import Mathlib.Data.List.Nodup
/-!
# The sessions of every room

What is remembered of the sessions is a list of rooms, each with its open sessions. `Sessions.pairs`
is the same as one list of pairs. Entering a session adds its pair, leaving takes it out, and the two
numbers that are reported are read off the pairs. The last needs that no room is listed twice and
that none is listed without a session, which both steps keep.

## Main definitions

* `LoadRig.Sessions.pairs` — the open sessions, each with its room.
* `LoadRig.Sessions.Tidy` — every room is listed once, and only with a session.

## Main results

* `LoadRig.Sessions.pairs_enter`, `LoadRig.Sessions.pairs_leave`
* `LoadRig.Sessions.Tidy.enter`, `LoadRig.Sessions.Tidy.leave`
* `LoadRig.Sessions.length_pairs` — the number of open sessions.
* `LoadRig.Sessions.Tidy.roomCount_eq` — the number of different rooms.
* `LoadRig.Sessions.Tidy.leave_eq_self_iff` — when leaving changes nothing.
-/

namespace LoadRig.Sessions

variable {room : List Char} {id : Nat} {rs : List (List Char × List Nat)} {s : Sessions}

/-- The sessions of every room, each with its room. -/
def pairsOf (rs : List (List Char × List Nat)) : List (List Char × Nat) :=
  rs.flatMap fun r => r.2.map (r.1, ·)

/-- The open sessions, each with its room. -/
def pairs (s : Sessions) : List (List Char × Nat) := pairsOf s.rooms

@[simp] theorem pairsOf_cons (r : List Char × List Nat) (rs : List (List Char × List Nat)) :
    pairsOf (r :: rs) = r.2.map (r.1, ·) ++ pairsOf rs := rfl

theorem mem_pairsOf : (room, id) ∈ pairsOf rs ↔ ∃ r ∈ rs, r.1 = room ∧ id ∈ r.2 := by
  simp only [pairsOf, List.mem_flatMap, List.mem_map, Prod.mk.injEq]
  constructor
  · rintro ⟨r, hr, i, hi, rfl, rfl⟩
    exact ⟨r, hr, rfl, hi⟩
  · rintro ⟨r, hr, rfl, hi⟩
    exact ⟨r, hr, id, hi, rfl, rfl⟩

/-- The number of open sessions. -/
theorem length_pairs (s : Sessions) : s.pairs.length = s.connections := by
  rw [pairs, connections]
  induction s.rooms with
  | nil => rfl
  | cons r rs ih => simp [ih]

/-! ### Changes -/

theorem pairsOf_enterRooms (h : (room, id) ∉ pairsOf rs) :
    (pairsOf (enterRooms room id rs)).Perm ((room, id) :: pairsOf rs) := by
  induction rs with
  | nil => exact .refl _
  | cons r rs ih =>
    rw [pairsOf_cons, List.mem_append, not_or] at h
    rw [enterRooms]
    split
    · next hr =>
      have hid : id ∉ r.2 := fun hmem => h.1 (hr ▸ List.mem_map_of_mem hmem)
      simp [hid, hr]
    · rw [pairsOf_cons, pairsOf_cons]
      exact ((ih h.2).append_left _).trans List.perm_middle

/-- **Entering a session adds it** to those that are open. -/
theorem pairs_enter (h : (room, id) ∉ s.pairs) :
    (s.enter room id).pairs.Perm ((room, id) :: s.pairs) :=
  pairsOf_enterRooms h

theorem map_filter_ne (room : List Char) (id : Nat) (ids : List Nat) :
    (ids.map (room, ·)).filter (· != (room, id)) = (ids.filter (· != id)).map (room, ·) := by
  rw [List.filter_map]
  congr 1
  refine List.filter_congr fun i _ => ?_
  simp [bne, Bool.beq_eq_decide_eq]

theorem filter_ne_eq_self {ps : List (List Char × Nat)} (h : ∀ p ∈ ps, p.1 ≠ room) :
    ps.filter (· != (room, id)) = ps :=
  List.filter_eq_self.mpr fun p hp => bne_iff_ne.mpr fun heq => h p hp (congrArg Prod.fst heq)

theorem pairsOf_leaveRooms (h : (rs.map (·.1)).Nodup) :
    pairsOf (leaveRooms room id rs) = (pairsOf rs).filter (· != (room, id)) := by
  induction rs with
  | nil => rfl
  | cons r rs ih =>
    obtain ⟨hr, hrs⟩ := List.nodup_cons.mp h
    rw [leaveRooms, pairsOf_cons, List.filter_append]
    split
    · next heq =>
      subst heq
      -- the room is listed nowhere else
      have hrest : ∀ p ∈ pairsOf rs, p.1 ≠ r.1 := by
        rintro ⟨other, i⟩ hp rfl
        obtain ⟨x, hx, hx1, -⟩ := mem_pairsOf.mp hp
        exact hr (List.mem_map.mpr ⟨x, hx, hx1⟩)
      rw [map_filter_ne, filter_ne_eq_self hrest]
      split
      · next hids => rw [hids]; rfl
      · rfl
    · next hne =>
      have hall : ∀ p ∈ r.2.map (r.1, ·), p.1 ≠ room := by
        intro p hp
        obtain ⟨i, -, rfl⟩ := List.mem_map.mp hp
        exact hne
      rw [pairsOf_cons, ih hrs, filter_ne_eq_self hall]

/-! ### Rooms -/

/-- Every room is listed once, and only with a session that is open in it. -/
structure Tidy (s : Sessions) : Prop where
  nodup : (s.rooms.map (·.1)).Nodup
  ne_nil : ∀ r ∈ s.rooms, r.2 ≠ []

/-- **Leaving takes a session out**, and no other. -/
theorem Tidy.pairs_leave (h : s.Tidy) (room : List Char) (id : Nat) :
    (s.leave room id).pairs = s.pairs.filter (· != (room, id)) :=
  pairsOf_leaveRooms h.nodup

/-- A room that is new is listed last. -/
theorem map_enterRooms (room : List Char) (id : Nat) (rs : List (List Char × List Nat)) :
    (enterRooms room id rs).map (·.1) =
      if room ∈ rs.map (·.1) then rs.map (·.1) else rs.map (·.1) ++ [room] := by
  induction rs with
  | nil => rfl
  | cons r rs ih =>
    rw [enterRooms]
    split
    · next hr => simp [hr]
    · next hr =>
      rw [List.map_cons, ih]
      split <;> simp_all [Ne.symm hr]

theorem ne_nil_of_mem_enterRooms (h : ∀ r ∈ rs, r.2 ≠ []) :
    ∀ r ∈ enterRooms room id rs, r.2 ≠ [] := by
  induction rs with
  | nil => simp [enterRooms]
  | cons r rs ih =>
    obtain ⟨hr, hrs⟩ := List.forall_mem_cons.mp h
    rw [enterRooms]
    split
    · refine List.forall_mem_cons.mpr ⟨?_, hrs⟩
      split
      · exact hr
      · exact List.cons_ne_nil _ _
    · exact List.forall_mem_cons.mpr ⟨hr, ih hrs⟩

theorem Tidy.enter (h : s.Tidy) (room : List Char) (id : Nat) : (s.enter room id).Tidy where
  nodup := by
    show ((enterRooms room id s.rooms).map (·.1)).Nodup
    rw [map_enterRooms]
    split
    · exact h.nodup
    · next hroom => exact List.nodup_append_comm.mp (List.nodup_cons.mpr ⟨hroom, h.nodup⟩)
  ne_nil := ne_nil_of_mem_enterRooms h.ne_nil

theorem map_leaveRooms_sublist (room : List Char) (id : Nat) (rs : List (List Char × List Nat)) :
    ((leaveRooms room id rs).map (·.1)).Sublist (rs.map (·.1)) := by
  induction rs with
  | nil => exact .slnil
  | cons r rs ih =>
    rw [leaveRooms]
    split
    · next hr =>
      split
      · exact .cons _ (.refl _)
      · rw [List.map_cons, List.map_cons, hr]
    · exact ih.cons_cons _

theorem ne_nil_of_mem_leaveRooms (h : ∀ r ∈ rs, r.2 ≠ []) :
    ∀ r ∈ leaveRooms room id rs, r.2 ≠ [] := by
  induction rs with
  | nil => exact h
  | cons r rs ih =>
    obtain ⟨hr, hrs⟩ := List.forall_mem_cons.mp h
    rw [leaveRooms]
    split
    · split
      · exact hrs
      · next hids => exact List.forall_mem_cons.mpr ⟨hids, hrs⟩
    · exact List.forall_mem_cons.mpr ⟨hr, ih hrs⟩

theorem Tidy.leave (h : s.Tidy) (room : List Char) (id : Nat) : (s.leave room id).Tidy where
  nodup := h.nodup.sublist (map_leaveRooms_sublist room id s.rooms)
  ne_nil := ne_nil_of_mem_leaveRooms h.ne_nil

theorem leaveRooms_eq_self (h : ∀ r ∈ rs, r.2 ≠ []) (hnot : (room, id) ∉ pairsOf rs) :
    leaveRooms room id rs = rs := by
  induction rs with
  | nil => rfl
  | cons r rs ih =>
    obtain ⟨hr, hrs⟩ := List.forall_mem_cons.mp h
    rw [pairsOf_cons, List.mem_append, not_or] at hnot
    rw [leaveRooms]
    by_cases hroom : r.1 = room
    · subst hroom
      have hid : id ∉ r.2 := fun hmem => hnot.1 (List.mem_map_of_mem hmem)
      have hall : r.2.filter (· != id) = r.2 := by
        refine List.filter_eq_self.mpr fun i hi => bne_iff_ne.mpr ?_
        rintro rfl
        exact hid hi
      rw [if_pos rfl, hall]
      split
      · next hnil => exact absurd hnil hr
      · rfl
    · rw [if_neg hroom, ih hrs hnot.2]

/-- **Leaving changes nothing exactly if the session is not open in that room.** -/
theorem Tidy.leave_eq_self_iff (h : s.Tidy) (room : List Char) (id : Nat) :
    s.leave room id = s ↔ (room, id) ∉ s.pairs := by
  constructor
  · intro heq hmem
    rw [← heq, h.pairs_leave] at hmem
    simp at hmem
  · intro hnot
    rw [Sessions.leave, leaveRooms_eq_self h.ne_nil hnot]

/-- **The rooms that are counted are those in which a session is open.** -/
theorem Tidy.roomCount_eq (h : s.Tidy) : s.roomCount = (s.pairs.map (·.1)).dedup.length := by
  have hperm : (s.rooms.map (·.1)).Perm (s.pairs.map (·.1)).dedup := by
    refine (List.perm_ext_iff_of_nodup h.nodup (List.nodup_dedup _)).mpr fun room => ?_
    rw [List.mem_dedup, List.mem_map, List.mem_map]
    constructor
    · rintro ⟨r, hr, rfl⟩
      obtain ⟨id, hid⟩ := List.exists_mem_of_ne_nil r.2 (h.ne_nil r hr)
      exact ⟨(r.1, id), mem_pairsOf.mpr ⟨r, hr, rfl, hid⟩, rfl⟩
    · rintro ⟨p, hp, rfl⟩
      obtain ⟨r, hr, hr1, -⟩ := mem_pairsOf.mp hp
      exact ⟨r, hr, hr1⟩
  rw [roomCount, ← hperm.length_eq, List.length_map]

end LoadRig.Sessions
