import LoadRig.Net.Ipv6
import LoadRig.Proofs.Text.Fields
import LoadRig.Proofs.Text.Hex
import Mathlib.Data.List.TakeWhile
/-!
# The text of an address of eight groups

The text of an address is read back as the same address. Where no run of zero groups is left out
this is cutting at the colons. Where one is left out, the two colons in its place are the first that
stand together, because no group has an empty text; what was left out is as long as the groups that
are missing, and it was made of zeros.

## Main results

* `LoadRig.Net.Ipv6.zeroRun?_spec` — what is left out.
* `LoadRig.Net.Ipv6.cut?_joinGroups` — where the text is cut.
* `LoadRig.Net.Ipv6.parse?_text` — the text is read back.
-/

namespace LoadRig.Net.Ipv6

open LoadRig.Text

/-! ### The run that is left out -/

/-- What is known while the longest run is looked for: nothing is found yet, or a run of the length
that is remembered. -/
theorem zeroRun_fold (gs : List (Fin 65536)) (is : List Nat) (best : Nat × Nat)
    (h : best.2 ≤ 1 ∨ best.2 = zerosFrom gs best.1) :
    let found := is.foldl
      (fun best i => if best.2 < zerosFrom gs i then (i, zerosFrom gs i) else best) best
    found.2 ≤ 1 ∨ found.2 = zerosFrom gs found.1 := by
  induction is generalizing best with
  | nil => exact h
  | cons i is ih =>
    rw [List.foldl_cons]
    apply ih
    split
    · exact .inr rfl
    · exact h

theorem zeroRun?_spec {gs : List (Fin 65536)} {i n : Nat} (h : zeroRun? gs = some (i, n)) :
    1 < n ∧ n = zerosFrom gs i := by
  obtain ⟨hlong, hfound⟩ := Option.ite_none_right_eq_some.mp h
  have hfold := zeroRun_fold gs (List.range gs.length) (0, 1) (.inl (Nat.le_refl 1))
  rw [Option.some.inj hfound] at hlong hfold
  exact ⟨hlong, hfold.resolve_left (Nat.not_le.mpr hlong)⟩

/-- From a place on there are as many zero groups as are counted, and then the others. -/
theorem drop_eq_zeros_append (gs : List (Fin 65536)) (i : Nat) :
    gs.drop i = List.replicate (zerosFrom gs i) 0 ++ gs.drop (i + zerosFrom gs i) := by
  have hzeros : (gs.drop i).takeWhile (· == 0) = List.replicate (zerosFrom gs i) 0 :=
    List.eq_replicate_iff.mpr ⟨rfl, fun g hg => by simpa using List.mem_takeWhile_imp hg⟩
  have hsplit : (gs.drop i).takeWhile (· == 0) ++ (gs.drop i).dropWhile (· == 0) = gs.drop i :=
    List.takeWhile_append_dropWhile
  have hdrop : gs.drop (i + zerosFrom gs i) = (gs.drop i).dropWhile (· == 0) := by
    calc gs.drop (i + zerosFrom gs i)
        = ((gs.drop i).takeWhile (· == 0) ++ (gs.drop i).dropWhile (· == 0)).drop
            (zerosFrom gs i) := by rw [hsplit, List.drop_drop]
      _ = (gs.drop i).dropWhile (· == 0) := List.drop_left
  rw [← hzeros, hdrop, hsplit]

/-! ### Groups -/

theorem group?_hexDigits (g : Fin 65536) : group? (hexDigits g.val) = some g := by
  have hlen : ¬ 4 < (hexDigits g.val).length :=
    Nat.not_lt.mpr (length_hexDigits_le (by decide) g.isLt)
  have hne : (hexDigits g.val).isEmpty = false := List.isEmpty_eq_false_iff.mpr (hexDigits_ne_nil _)
  have hnumber : (hexDigits g.val).foldlM (fun n c => (hexValue? c).map (16 * n + ·)) 0 =
      some g.val := hexNumber?_hexDigits g.val
  have hfin : Fin.ofNat 65536 g.val = g := Fin.ext (Nat.mod_eq_of_lt g.isLt)
  rw [group?, hne, hnumber, decide_eq_false hlen]
  exact congrArg some hfin

/-- The text of a group has neither colons nor points in it. -/
theorem ne_of_mem_hexDigits {n : Nat} {c mark : Char} (hmark : hexValue? mark = none)
    (h : c ∈ hexDigits n) : c ≠ mark := by
  rintro rfl
  obtain ⟨d, hd, rfl⟩ := exists_of_mem_hexDigits h
  rw [hexValue?_hexChar hd] at hmark
  cases hmark

/-- The texts of groups. -/
def groupTexts (gs : List (Fin 65536)) : List (List Char) := gs.map fun g => hexDigits g.val

theorem mapM_group? (gs : List (Fin 65536)) : (groupTexts gs).mapM group? = some gs := by
  induction gs with
  | nil => rfl
  | cons g gs ih =>
    rw [groupTexts, List.map_cons, List.mapM_cons, group?_hexDigits]
    rw [groupTexts] at ih
    rw [ih]
    rfl

theorem of_mem_groupTexts {gs : List (Fin 65536)} {f : List Char} (h : f ∈ groupTexts gs) :
    f ≠ [] ∧ ∀ c ∈ f, c ≠ ':' ∧ c ≠ '.' := by
  obtain ⟨g, -, rfl⟩ := List.mem_map.mp h
  exact ⟨hexDigits_ne_nil _, fun c hc =>
    ⟨ne_of_mem_hexDigits (by decide) hc, ne_of_mem_hexDigits (by decide) hc⟩⟩

theorem fields_joinGroups {gs : List (Fin 65536)} (h : gs ≠ []) :
    fields (· == ':') (joinGroups gs) = groupTexts gs := by
  refine fields_joined rfl (by simpa [groupTexts] using h) fun f hf c hc => ?_
  exact beq_eq_false_iff_ne.mpr ((of_mem_groupTexts hf).2 c hc).1

/-- Groups with colons between them are read back. -/
theorem groups?_joinGroups {gs : List (Fin 65536)} (h : gs ≠ []) :
    groups? (joinGroups gs) = some gs := by
  have hlast : ((groupTexts gs).getLast?.getD []).contains '.' = false := by
    have hne : groupTexts gs ≠ [] := by simpa [groupTexts] using h
    rw [List.getLast?_eq_some_getLast hne, Option.getD_some]
    have hmem := (of_mem_groupTexts (List.getLast_mem hne)).2
    simpa using fun hdot => (hmem '.' hdot).2 rfl
  rw [groups?, fields_joinGroups h, hlast]
  simp [mapM_group?]

/-- What the text of groups is made of. -/
theorem of_mem_joinGroups {gs : List (Fin 65536)} {c : Char} (h : c ∈ joinGroups gs) :
    c = ':' ∨ ∃ d < 16, c = hexChar d := by
  refine (mem_joined h).imp_right fun ⟨f, hf, hc⟩ => ?_
  obtain ⟨g, -, rfl⟩ := List.mem_map.mp hf
  exact exists_of_mem_hexDigits hc

/-- What the text of an address is made of. -/
theorem of_mem_text {a : Ipv6} {c : Char} (h : c ∈ a.text) : c = ':' ∨ ∃ d < 16, c = hexChar d := by
  rw [text] at h
  split at h
  · exact of_mem_joinGroups h
  · rcases List.mem_append.mp h with h | h
    · exact of_mem_joinGroups h
    · rcases List.mem_cons.mp h with h | h
      · exact .inl h
      · rcases List.mem_cons.mp h with h | h
        · exact .inl h
        · exact of_mem_joinGroups h

/-! ### Where the text is cut -/

theorem cut?_cons {c : Char} {cs : List Char} (h : c ≠ ':' ∨ cs.head? ≠ some ':') :
    cut? (c :: cs) = (cut? cs).map fun (before, behind) => (c :: before, behind) := by
  rw [cut?]
  rintro rest rfl rfl
  simp at h

/-- What has no colon in it is cut nowhere. -/
theorem cut?_append {f : List Char} (cs : List Char) (hf : ∀ c ∈ f, c ≠ ':') :
    cut? (f ++ cs) = (cut? cs).map fun (before, behind) => (f ++ before, behind) := by
  induction f with
  | nil => simp
  | cons c f ih =>
    obtain ⟨hc, hf⟩ := List.forall_mem_cons.mp hf
    rw [List.cons_append, cut?_cons (.inl hc), ih hf, Option.map_map]
    rfl

/-- The text of groups begins with a digit. -/
theorem head?_joinGroups (g : Fin 65536) (gs : List (Fin 65536)) :
    ∃ c ∈ hexDigits g.val, (joinGroups (g :: gs)).head? = some c := by
  obtain ⟨c, f, hf⟩ := List.exists_cons_of_ne_nil (hexDigits_ne_nil g.val)
  refine ⟨c, hf ▸ List.mem_cons_self, ?_⟩
  cases gs <;> simp [joinGroups, joined, hf]

/-- **Groups with colons between them are cut nowhere**, so what comes behind them decides. -/
theorem cut?_joinGroups (gs : List (Fin 65536)) (cs : List Char) :
    cut? (joinGroups gs ++ cs) =
      (cut? cs).map fun (before, behind) => (joinGroups gs ++ before, behind) := by
  induction gs with
  | nil => simp [joinGroups, joined]
  | cons g gs ih =>
    have hcolons : ∀ c ∈ hexDigits g.val, c ≠ ':' := fun c hc => ne_of_mem_hexDigits (by decide) hc
    cases gs with
    | nil => exact cut?_append cs hcolons
    | cons g' gs =>
      have hjoin : joinGroups (g :: g' :: gs) =
          hexDigits g.val ++ ':' :: joinGroups (g' :: gs) := rfl
      have hhead : (joinGroups (g' :: gs) ++ cs).head? ≠ some ':' := by
        obtain ⟨c, hc, hhead⟩ := head?_joinGroups g' gs
        rw [List.head?_append, hhead, Option.some_or]
        exact fun heq => ne_of_mem_hexDigits (by decide) hc (Option.some.inj heq)
      rw [hjoin, List.append_assoc, cut?_append _ hcolons, List.cons_append, cut?_cons (.inr hhead),
        ih, Option.map_map, Option.map_map]
      simp [Function.comp_def]

/-! ### Reading the text -/

theorem isEmpty_joinGroups (gs : List (Fin 65536)) : (joinGroups gs).isEmpty = gs.isEmpty := by
  cases gs with
  | nil => rfl
  | cons g gs =>
    obtain ⟨c, -, hc⟩ := head?_joinGroups g gs
    obtain ⟨cs, hcs⟩ := List.head?_eq_some_iff.mp hc
    rw [hcs]
    rfl

/-- The groups before those that were left out. -/
theorem left_joinGroups (gs : List (Fin 65536)) :
    (if (joinGroups gs).isEmpty then some []
      else (fields (· == ':') (joinGroups gs)).mapM group?) = some gs := by
  rw [isEmpty_joinGroups]
  cases gs with
  | nil => rfl
  | cons g gs =>
    rw [List.isEmpty_cons, if_neg Bool.false_ne_true, fields_joinGroups (List.cons_ne_nil g gs),
      mapM_group?]

/-- The groups behind those that were left out. -/
theorem right_joinGroups (gs : List (Fin 65536)) :
    (if (joinGroups gs).isEmpty then some [] else groups? (joinGroups gs)) = some gs := by
  rw [isEmpty_joinGroups]
  cases gs with
  | nil => rfl
  | cons g gs =>
    rw [List.isEmpty_cons, if_neg Bool.false_ne_true, groups?_joinGroups (List.cons_ne_nil g gs)]

/-- What is read where a run was left out between some groups and others. -/
theorem parse?_of_cut {cs before behind : List Char} {left right : List (Fin 65536)}
    (hcut : cut? cs = some (before, behind))
    (hleft : (if before.isEmpty then some []
      else (fields (· == ':') before).mapM group?) = some left)
    (hright : (if behind.isEmpty then some [] else groups? behind) = some right)
    (hfew : left.length + right.length ≤ 7) :
    parse? cs = ofGroups?
      (left ++ List.replicate (8 - (left.length + right.length)) 0 ++ right) := by
  have hform : parse? cs =
      (if before.isEmpty then some [] else (fields (· == ':') before).mapM group?).bind fun left =>
        (if behind.isEmpty then some [] else groups? behind).bind fun right =>
          let given := left.length + right.length
          if 7 < given then none
          else ofGroups? (left ++ List.replicate (8 - given) 0 ++ right) := by
    rw [parse?, hcut]
    cases hb : before.isEmpty <;> cases hb' : behind.isEmpty <;>
      simp only [hb, hb', Bool.false_eq_true, if_true, if_false, Option.bind_eq_bind,
        Option.bind_some, Option.bind_none]
  rw [hform, hleft, Option.bind_some, hright, Option.bind_some, if_neg (Nat.not_lt.mpr hfew)]

/-- **The text of an address is read back.** -/
theorem parse?_text (a : Ipv6) : parse? a.text = some a := by
  rcases a with ⟨gs, hlen⟩
  have hne : gs ≠ [] := by rintro rfl; cases hlen
  rw [text]
  cases hz : zeroRun? gs with
  | none =>
    show parse? (joinGroups gs) = _
    have hcut : cut? (joinGroups gs) = none := by simpa [cut?] using cut?_joinGroups gs []
    rw [parse?, hcut, groups?_joinGroups hne, Option.bind_some, ofGroups?, dif_pos hlen]
  | some run =>
    obtain ⟨i, n⟩ := run
    obtain ⟨hlong, hrun⟩ := zeroRun?_spec hz
    have hcut := cut?_joinGroups (gs.take i) (':' :: ':' :: joinGroups (gs.drop (i + n)))
    simp only [cut?, Option.map_some, List.append_nil] at hcut
    have hback : gs.take i ++ List.replicate n 0 ++ gs.drop (i + n) = gs := by
      rw [List.append_assoc, hrun, ← drop_eq_zeros_append, List.take_append_drop]
    have hcount : (gs.take i).length + (gs.drop (i + n)).length + n = 8 := by
      have hall := congrArg List.length hback
      simp only [List.length_append, List.length_replicate, hlen] at hall
      omega
    have hmissing : 8 - ((gs.take i).length + (gs.drop (i + n)).length) = n := by omega
    show parse? _ = _
    rw [parse?_of_cut hcut (left_joinGroups _) (right_joinGroups _) (by omega), hmissing, hback,
      ofGroups?, dif_pos hlen]

end LoadRig.Net.Ipv6
