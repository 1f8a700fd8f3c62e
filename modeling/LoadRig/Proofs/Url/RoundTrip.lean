import LoadRig.Proofs.Text.Ahead
import LoadRig.Proofs.Url.Host
import LoadRig.Url.Read
/-!
# The text of an address

What is read of an address is kept in the form in which it is written: escaped where it needs to be,
with the dots in the path carried out, and without the port that belongs to the scheme. Such an address
is sound, and reading its text gives the address back.

## Main definitions

* `LoadRig.Url.PathPart` — what can stand between two slashes.
* `LoadRig.Url.Sound` — an address as it is read.

## Main results

* `LoadRig.Url.sound_of_read` — what is read is sound.
* `LoadRig.Url.read_text` — the text of a sound address is read back.
-/

namespace LoadRig.Url

open LoadRig.Text

variable {naming : Naming} {u : Url} {cs rest : List Char}

/-- What can stand between two slashes of a path: there are no dots to be carried out, and nothing to
be escaped. -/
structure PathPart (p : List Char) : Prop where
  clean : Clean inPath p
  noSlash : ∀ c ∈ p, c ≠ '/' ∧ c ≠ '\\'
  notAbove : isAbove p = false
  notHere : isHere p = false

/-- An address as it is read. -/
structure Sound (naming : Naming) (u : Url) : Prop where
  user : Clean inUserInfo u.user
  password : Clean inUserInfo u.password
  host : u.host.Sound naming
  port : ∀ p ∈ u.otherPort, p < 65536 ∧ p ≠ u.scheme.defaultPort
  path_ne_nil : u.path ≠ []
  path : ∀ p ∈ u.path, PathPart p
  query : ∀ q ∈ u.query, Clean inQuery q
  fragment : ∀ f ∈ u.fragment, Clean inFragment f

/-! ### Paths -/

theorem pathPart_nil : PathPart [] := ⟨nofun, nofun, rfl, rfl⟩

theorem mem_goUp {above : List (List Char)} {p : List Char} (h : p ∈ goUp above) : p ∈ above := by
  cases above with
  | nil => exact h
  | cons q qs =>
    rw [goUp] at h
    split at h
    · exact h
    · exact List.mem_cons_of_mem q h

theorem goUp_pathPart {above : List (List Char)} (h : ∀ p ∈ above, PathPart p) :
    ∀ p ∈ goUp above, PathPart p := fun p hp => h p (mem_goUp hp)

/-- Carrying out the dots leaves none. -/
theorem pathPart_of_mem_walk {above ps : List (List Char)} (ha : ∀ p ∈ above, PathPart p)
    (hp : ∀ p ∈ ps, Clean inPath p ∧ ∀ c ∈ p, c ≠ '/' ∧ c ≠ '\\') :
    ∀ p ∈ walk above ps, PathPart p := by
  have hcons : ∀ {p : List Char} {qs : List (List Char)}, PathPart p → (∀ q ∈ qs, PathPart q) →
      ∀ q ∈ p :: qs, PathPart q := fun h hqs => List.forall_mem_cons.mpr ⟨h, hqs⟩
  fun_induction walk above ps with
  | case1 above => exact fun p hp => ha p (List.mem_reverse.mp hp)
  | case2 above last habove =>
    exact fun p hp => hcons pathPart_nil (goUp_pathPart ha) p (List.mem_reverse.mp hp)
  | case3 above last habove hhere =>
    exact fun p hp => hcons pathPart_nil ha p (List.mem_reverse.mp hp)
  | case4 above last habove hhere =>
    obtain ⟨hclean, hslash⟩ := hp last List.mem_cons_self
    have hlast : PathPart last := ⟨hclean, hslash, by simpa using habove, by simpa using hhere⟩
    exact fun p hp => hcons hlast ha p (List.mem_reverse.mp hp)
  | case5 above p q ps habove ih =>
    exact ih (goUp_pathPart ha) (List.forall_mem_cons.mp hp).2
  | case6 above p q ps habove hhere ih => exact ih ha (List.forall_mem_cons.mp hp).2
  | case7 above p q ps habove hhere ih =>
    obtain ⟨⟨hclean, hslash⟩, hrest⟩ := List.forall_mem_cons.mp hp
    exact ih (hcons ⟨hclean, hslash, by simpa using habove, by simpa using hhere⟩ ha) hrest

theorem walk_ne_nil {above ps : List (List Char)} (h : ps ≠ []) : walk above ps ≠ [] := by
  fun_induction walk above ps with
  | case1 => exact absurd rfl h
  | case2 | case3 | case4 => simp
  | case5 _ _ _ _ _ ih | case6 _ _ _ _ _ _ ih | case7 _ _ _ _ _ _ ih =>
    exact ih (List.cons_ne_nil _ _)

/-- Where there are no dots, nothing is carried out. -/
theorem walk_eq {above ps : List (List Char)} (h : ∀ p ∈ ps, PathPart p) :
    walk above ps = above.reverse ++ ps := by
  induction ps generalizing above with
  | nil => rw [walk, List.append_nil]
  | cons p ps ih =>
    obtain ⟨hp, hps⟩ := List.forall_mem_cons.mp h
    cases ps with
    | nil => simp [walk, hp.notAbove, hp.notHere]
    | cons q ps => simp [walk, hp.notAbove, hp.notHere, ih hps]

theorem readPath_ne_nil (cs : List Char) : readPath cs ≠ [] := by
  unfold readPath
  exact walk_ne_nil (by simpa using fields_ne_nil _ _)

theorem pathPart_of_mem_readPath : ∀ p ∈ readPath cs, PathPart p := by
  refine pathPart_of_mem_walk nofun fun p hp => ?_
  obtain ⟨f, hf, rfl⟩ := List.mem_map.mp hp
  refine ⟨clean_escape_inPath f, fun c hc => ?_⟩
  rcases of_mem_escape hc with ⟨hmem, -⟩ | rfl | ⟨d, hd, rfl⟩
  · have hslash := (of_mem_fields hf c hmem).2
    simpa using hslash
  · decide
  · have hdigits : ∀ d < 16, (hexChar d).toUpper ≠ '/' ∧ (hexChar d).toUpper ≠ '\\' := by decide
    exact hdigits d hd

/-- A path is its parts behind slashes. -/
theorem flatMap_slash {ps : List (List Char)} (h : ps ≠ []) :
    ps.flatMap ('/' :: ·) = '/' :: joined '/' ps := by
  induction ps with
  | nil => exact absurd rfl h
  | cons p ps ih =>
    cases ps with
    | nil => simp [joined]
    | cons q ps =>
      rw [List.flatMap_cons, ih (List.cons_ne_nil q ps)]
      rfl

/-- **The text of a path is read back.** -/
theorem readPath_text {ps : List (List Char)} (hne : ps ≠ []) (h : ∀ p ∈ ps, PathPart p) :
    readPath (ps.flatMap ('/' :: ·)) = ps := by
  have hfields : fields (fun c => c == '/' || c == '\\') (joined '/' ps) = ps := by
    refine fields_joined rfl hne fun p hp c hc => ?_
    simpa using (h p hp).noSlash c hc
  have hescape : ps.map (escape inPath) = ps :=
    (List.map_congr_left fun p hp => escape_eq_self (h p hp).clean).trans (List.map_id ps)
  rw [flatMap_slash hne]
  show walk [] ((fields _ (joined '/' ps)).map _) = ps
  rw [hfields, hescape, walk_eq h]
  rfl

/-! ### Where a part ends -/

section Marks

variable {a : List Char} {mark : Char}

/-- A part that may be missing, behind its mark. -/
def marked (mark : Char) (part : Option (List Char)) : List Char := part.elim [] (mark :: ·)

/-- Such a part ends the one before it. -/
theorem noneAhead_marked {part : Option (List Char)} :
    NoneAhead (· != mark) (marked mark part) := by
  cases part with
  | none => exact noneAhead_nil
  | some part => exact noneAhead_cons (bne_self_eq_false mark)

theorem behind?_marked {part : Option (List Char)} (ha : ∀ c ∈ a, c ≠ mark) :
    behind? mark (a ++ marked mark part) = part := by
  rw [behind?, (takeWhile_append_of_noneAhead (fun c hc => bne_iff_ne.mpr (ha c hc))
    noneAhead_marked).2]
  cases part <;> rfl

theorem takeWhile_marked {part : Option (List Char)} (ha : ∀ c ∈ a, c ≠ mark) :
    (a ++ marked mark part).takeWhile (· != mark) = a :=
  (takeWhile_append_of_noneAhead (fun c hc => bne_iff_ne.mpr (ha c hc)) noneAhead_marked).1

end Marks

/-! ### User names, hosts and ports -/

theorem cutUser?_of_none (h : ∀ c ∈ cs, c ≠ '@') : cutUser? cs = none := by
  rw [cutUser?, if_neg]
  simpa using fun hmem => h '@' hmem rfl

/-- The last `@` is the one behind which there is none. -/
theorem cutUser?_append {info server : List Char} (h : ∀ c ∈ server, c ≠ '@') :
    cutUser? (info ++ '@' :: server) = some (info, server) := by
  have hbehind : (info ++ '@' :: server).reverse.takeWhile (· != '@') = server.reverse := by
    rw [List.reverse_append, List.reverse_cons, List.append_assoc]
    exact (takeWhile_append_of_noneAhead
      (fun c hc => bne_iff_ne.mpr (h c (List.mem_reverse.mp hc))) (noneAhead_cons rfl)).1
  have hlength : info.length + (server.length + 1) - server.length - 1 = info.length := by omega
  rw [cutUser?, if_pos (by simp), hbehind]
  simp [hlength]

/-- Outside of brackets a host goes on to the first colon. -/
theorem takeHost_outside {host : List Char} (h : ∀ c ∈ host, c ≠ ':' ∧ c ≠ '[') :
    takeHost false (host ++ rest) =
      (host ++ (takeHost false rest).1, (takeHost false rest).2) := by
  induction host with
  | nil => rfl
  | cons c host ih =>
    obtain ⟨⟨hcolon, hopen⟩, hhost⟩ := List.forall_mem_cons.mp h
    simp [takeHost, hcolon, beq_false_of_ne hopen, ih hhost]

/-- Inside of them it goes on to their end at least. -/
theorem takeHost_inside {host : List Char} (h : ∀ c ∈ host, c ≠ ']') :
    takeHost true (host ++ ']' :: rest) =
      (host ++ ']' :: (takeHost false rest).1, (takeHost false rest).2) := by
  induction host with
  | nil => simp [takeHost]
  | cons c host ih =>
    obtain ⟨hclose, hhost⟩ := List.forall_mem_cons.mp h
    simp [takeHost, bne_iff_ne.mpr hclose, ih hhost]

theorem takeHost_portText (u : Url) : takeHost false u.portText = ([], u.portText) := by
  rw [portText]
  cases u.otherPort <;> rfl

/-- **The host ends where its text does.** -/
theorem takeHost_text (hs : u.host.Sound naming) :
    takeHost false (u.host.text ++ u.portText) = (u.host.text, u.portText) := by
  have hplain : ∀ {c : Char}, isForbidden c = false → c ≠ ':' ∧ c ≠ '[' := fun hc =>
    have ⟨_, _, _, _, _, hcolon, _, _, hopen, _⟩ := of_not_isForbidden hc
    ⟨hcolon, hopen⟩
  cases hhost : u.host with
  | name s =>
    rw [hhost] at hs
    rw [Host.text, takeHost_outside fun c hc => hplain (hs.2.2.2 c hc), takeHost_portText]
    simp
  | ipv4 a =>
    rw [Host.text, takeHost_outside fun c hc =>
      hplain (plain_of_isDigit (isDigit_of_mem_text hc)).2, takeHost_portText]
    simp
  | ipv6 a =>
    have hclose : ∀ c ∈ a.text, c ≠ ']' := by
      intro c hc
      rcases Net.Ipv6.of_mem_text hc with rfl | ⟨d, hd, rfl⟩
      · decide
      · have hdigits : ∀ d < 16, hexChar d ≠ ']' := by decide
        exact hdigits d hd
    have hinside : takeHost true (a.text ++ ']' :: u.portText) = _ := takeHost_inside hclose
    simp [Host.text, takeHost, hinside, takeHost_portText]

theorem readPort_portText (hport : ∀ p ∈ u.otherPort, p < 65536 ∧ p ≠ u.scheme.defaultPort) :
    readPort (some u.scheme.defaultPort) u.portText = .ok u.otherPort := by
  rw [portText]
  cases hp : u.otherPort with
  | none => rfl
  | some p =>
    obtain ⟨hsmall, hother⟩ := hport p hp
    simp [readPort, all_isDigit_digits, digitsValue_digits, digits_ne_nil, hsmall, hother.symm]

/-- **User name and password are cut apart again.** -/
theorem cutPassword_text {user password : List Char} (huser : ∀ c ∈ user, c ≠ ':') :
    cutPassword (user ++ (if password.isEmpty then [] else ':' :: password)) =
      (user, password) := by
  have hcolon : NoneAhead (· != ':') (if password.isEmpty then [] else ':' :: password) := by
    split
    · exact noneAhead_nil
    · exact noneAhead_cons rfl
  have huser' : ∀ c ∈ user, (c != ':') = true := fun c hc => bne_iff_ne.mpr (huser c hc)
  obtain ⟨htake, hdrop⟩ := takeWhile_append_of_noneAhead huser' hcolon
  rw [cutPassword, htake, hdrop]
  cases password <;> rfl

/-- User name and password as they stand before the `@`. -/
def userInfo (u : Url) : List Char :=
  u.user ++ if u.password.isEmpty then [] else ':' :: u.password

theorem userText_eq (u : Url) :
    u.userText = if u.userInfo.isEmpty then [] else u.userInfo ++ ['@'] := by
  rw [userText, userInfo]
  cases u.user <;> cases u.password <;> rfl

/-- **The user is cut off again.** -/
theorem cutUser?_text {server : List Char} (hs : ∀ c ∈ server, c ≠ '@') :
    (cutUser? (u.userText ++ server)).getD ([], u.userText ++ server) = (u.userInfo, server) := by
  rw [userText_eq]
  cases hinfo : u.userInfo with
  | nil => simp [cutUser?_of_none hs]
  | cons c info =>
    have hcut : cutUser? (c :: info ++ '@' :: server) = _ := cutUser?_append hs
    simp only [List.isEmpty_cons, if_neg Bool.false_ne_true, List.append_assoc,
      List.cons_append, List.nil_append] at hcut ⊢
    rw [hcut]
    rfl

/-! ### What an address is made of -/

theorem of_inFragment {c : Char} (h : inFragment c = false) : 0x20 < c.toNat := by
  have hne : c.toNat ≠ 0x20 := fun heq => by
    have hspace : c = ' ' := Char.ext (UInt32.toNat_inj.mp heq)
    rw [hspace] at h
    cases h
  simp only [inFragment, isControl, Bool.or_eq_false_iff, decide_eq_false_iff_not] at h
  omega

theorem of_inPath {c : Char} (h : inPath c = false) : 0x20 < c.toNat ∧ c ≠ '?' ∧ c ≠ '#' := by
  simp only [inPath, Bool.or_eq_false_iff] at h
  refine ⟨of_inFragment h.1, ?_, ?_⟩ <;> rintro rfl <;> cases h.2

theorem of_inQuery {c : Char} (h : inQuery c = false) : 0x20 < c.toNat ∧ c ≠ '#' := by
  have hne : c.toNat ≠ 0x20 := fun heq => by
    have hspace : c = ' ' := Char.ext (UInt32.toNat_inj.mp heq)
    rw [hspace] at h
    cases h
  simp only [inQuery, isControl, Bool.or_eq_false_iff, decide_eq_false_iff_not] at h
  refine ⟨by omega, ?_⟩
  rintro rfl
  cases h.2

theorem of_inUserInfo {c : Char} (h : inUserInfo c = false) :
    0x20 < c.toNat ∧ endsAuthority c = false ∧ c ≠ ':' ∧ c ≠ '@' := by
  simp only [inUserInfo, Bool.or_eq_false_iff] at h
  obtain ⟨hpath, hother⟩ := h
  obtain ⟨hshown, hquery, hfragment⟩ := of_inPath hpath
  have hmarks : c ≠ '/' ∧ c ≠ '\\' ∧ c ≠ ':' ∧ c ≠ '@' := by
    refine ⟨?_, ?_, ?_, ?_⟩ <;> rintro rfl <;> cases hother
  exact ⟨hshown, by simp [endsAuthority, hquery, hfragment, hmarks.1, hmarks.2.1],
    hmarks.2.2⟩

/-- What stands in the text of a host. -/
theorem of_mem_hostText (hs : u.host.Sound naming) {c : Char} (hc : c ∈ u.host.text) :
    0x20 < c.toNat ∧ endsAuthority c = false ∧ c ≠ '@' := by
  rcases Host.of_mem_text hs hc with h | rfl | rfl | rfl | ⟨d, hd, rfl⟩
  · obtain ⟨hshown, -, -, hfragment, hslash, -, hquery, hat, -, hback⟩ := of_not_isForbidden h
    exact ⟨hshown, by simp [endsAuthority, hfragment, hslash, hquery, hback], hat⟩
  · decide
  · decide
  · decide
  · have hdigits : ∀ d < 16, 0x20 < (hexChar d).toNat ∧ endsAuthority (hexChar d) = false ∧
        hexChar d ≠ '@' := by decide
    exact hdigits d hd

theorem of_mem_portText {c : Char} (hc : c ∈ u.portText) :
    0x20 < c.toNat ∧ endsAuthority c = false ∧ c ≠ '@' := by
  rw [portText] at hc
  cases hp : u.otherPort with
  | none =>
    rw [hp] at hc
    cases hc
  | some p =>
    rw [hp] at hc
    rcases List.mem_cons.mp hc with rfl | hc
    · decide
    · have hfree := (plain_of_isDigit (.inl (isDigit_of_mem_digits hc))).2
      obtain ⟨hshown, -, -, hfragment, hslash, -, hquery, hat, -, hback⟩ :=
        of_not_isForbidden hfree
      exact ⟨hshown, by simp [endsAuthority, hfragment, hslash, hquery, hback], hat⟩

theorem of_mem_userText (hs : u.Sound naming) {c : Char} (hc : c ∈ u.userText) :
    0x20 < c.toNat ∧ endsAuthority c = false := by
  have hinfo : ∀ c ∈ u.userInfo, 0x20 < c.toNat ∧ endsAuthority c = false := by
    intro c hc
    rcases List.mem_append.mp hc with hc | hc
    · have h := of_inUserInfo (hs.user c hc)
      exact ⟨h.1, h.2.1⟩
    · split at hc
      · cases hc
      · rcases List.mem_cons.mp hc with rfl | hc
        · decide
        · have h := of_inUserInfo (hs.password c hc)
          exact ⟨h.1, h.2.1⟩
  rw [userText_eq] at hc
  split at hc
  · cases hc
  · rcases List.mem_append.mp hc with hc | hc
    · exact hinfo c hc
    · obtain rfl := List.mem_singleton.mp hc
      decide

theorem of_mem_pathText (hs : u.Sound naming) {c : Char} (hc : c ∈ u.pathText) :
    0x20 < c.toNat ∧ c ≠ '?' ∧ c ≠ '#' := by
  obtain ⟨p, hp, hc⟩ := List.mem_flatMap.mp hc
  rcases List.mem_cons.mp hc with rfl | hc
  · decide
  · exact of_inPath ((hs.path p hp).clean c hc)

theorem of_mem_marked {mark : Char} {part : Option (List Char)} {P : Char → Prop} (hmark : P mark)
    (hpart : ∀ cs ∈ part, ∀ c ∈ cs, P c) : ∀ c ∈ marked mark part, P c := by
  cases part with
  | none => nofun
  | some cs => exact List.forall_mem_cons.mpr ⟨hmark, hpart cs rfl⟩

/-! ### Whole addresses -/

/-- What stands behind the two slashes of an address. -/
def server (u : Url) : List Char := u.host.text ++ u.portText

def tail (u : Url) : List Char := u.pathText ++ marked '?' u.query ++ marked '#' u.fragment

theorem text_eq (u : Url) : u.text =
    u.scheme.name.toList ++ ':' :: '/' :: '/' :: (u.userText ++ u.server ++ u.tail) := by
  rw [text, server, tail]
  cases u.query <;> cases u.fragment <;> simp [marked]

theorem takeScheme?_name (s : Scheme) (cs : List Char) :
    takeScheme? (s.name.toList ++ ':' :: cs) = some (s.name.toList, cs) := by
  cases s <;> rfl

theorem ofName?_name (s : Scheme) : Scheme.ofName? s.name.toList = some s := by
  cases s <;> rfl

/-- A text without blanks and control characters is not cleaned of any. -/
theorem cleaned_eq_self (h : ∀ c ∈ cs, 0x20 < c.toNat) : cleaned cs = cs := by
  have hedge : ∀ c ∈ cs, ¬ decide (c.toNat ≤ 0x20) = true := fun c hc =>
    mt of_decide_eq_true (Nat.not_le.mpr (h c hc))
  have hdrop : ∀ ds : List Char, (∀ c ∈ ds, c ∈ cs) →
      ds.dropWhile (fun c => decide (c.toNat ≤ 0x20)) = ds := by
    intro ds hds
    cases ds with
    | nil => rfl
    | cons c ds => exact List.dropWhile_cons_of_neg (hedge c (hds c List.mem_cons_self))
  have hfilter : cs.filter (fun c => c != '\t' && c != '\n' && c != '\r') = cs := by
    refine List.filter_eq_self.mpr fun c hc => ?_
    have hshown := h c hc
    have hmarks : c ≠ '\t' ∧ c ≠ '\n' ∧ c ≠ '\r' := by
      refine ⟨?_, ?_, ?_⟩ <;> rintro rfl <;> exact absurd hshown (by decide)
    simp [hmarks]
  unfold cleaned
  simp only [hdrop cs fun c hc => hc, hdrop cs.reverse fun c hc => List.mem_reverse.mp hc,
    List.reverse_reverse, hfilter]

/-- What stands behind the two slashes is cut from what follows it. -/
theorem takeWhile_tail (hs : u.Sound naming) :
    (∀ c ∈ u.userText ++ u.server, (!endsAuthority c) = true) ∧
      NoneAhead (fun c => !endsAuthority c) u.tail := by
  constructor
  · intro c hc
    simp only [server, List.mem_append] at hc
    rw [Bool.not_eq_true']
    rcases hc with hc | hc | hc
    · exact (of_mem_userText hs hc).2
    · exact (of_mem_hostText hs.host hc).2.1
    · exact (of_mem_portText hc).2.1
  · obtain ⟨p, ps, hpath⟩ := List.exists_cons_of_ne_nil hs.path_ne_nil
    rw [tail, pathText, hpath]
    intro c hc
    obtain rfl : '/' = c := Option.some.inj hc
    rfl

/-- **What follows the scheme in the text of an address is read back.** -/
theorem readWeb_text (hn : naming.Lawful) (hs : u.Sound naming) :
    readWeb u.scheme ('/' :: '/' :: (u.userText ++ u.server ++ u.tail)) naming = .ok u := by
  obtain ⟨hauthority, htail⟩ := takeWhile_tail hs
  have hne : u.userText ++ u.server ≠ [] := by
    simp [server, Host.text_ne_nil hs.host]
  have hslash : ('/' :: '/' :: (u.userText ++ u.server ++ u.tail)).dropWhile
      (fun c => c == '/' || c == '\\') = u.userText ++ u.server ++ u.tail := by
    have hslashes : ∀ c ∈ ['/', '/'], (c == '/' || c == '\\') = true :=
      List.all_eq_true.mp (by decide)
    refine (takeWhile_append_of_noneAhead hslashes fun c hc => ?_).2
    have hmem : c ∈ u.userText ++ u.server := by
      obtain ⟨d, ds, hd⟩ := List.exists_cons_of_ne_nil hne
      rw [hd] at hc ⊢
      obtain rfl : d = c := Option.some.inj hc
      exact List.mem_cons_self
    have hend := hauthority c hmem
    simp only [endsAuthority, Bool.not_eq_true', Bool.or_eq_false_iff] at hend
    simp [hend.1.1]
  have hat : ∀ c ∈ u.server, c ≠ '@' := by
    intro c hc
    rcases List.mem_append.mp hc with hc | hc
    · exact (of_mem_hostText hs.host hc).2.2
    · exact (of_mem_portText hc).2.2
  have hhost : u.host.text.isEmpty = false := by
    simpa using Host.text_ne_nil hs.host
  have hpath : ∀ c ∈ u.pathText, c ≠ '?' ∧ c ≠ '#' := fun c hc => (of_mem_pathText hs hc).2
  have hbefore : ∀ c ∈ u.pathText ++ marked '?' u.query, c ≠ '#' := by
    intro c hc
    rcases List.mem_append.mp hc with hc | hc
    · exact (hpath c hc).2
    · exact of_mem_marked (by decide) (fun q hq c hc => (of_inQuery (hs.query q hq c hc)).2) c hc
  have hescape : ∀ {needs : Char → Bool} {part : Option (List Char)},
      (∀ cs ∈ part, Clean needs cs) → part.map (escape needs) = part := by
    intro needs part hclean
    cases part with
    | none => rfl
    | some cs => exact congrArg some (escape_eq_self (hclean cs rfl))
  have huser : ∀ c ∈ u.user, c ≠ ':' := fun c hc => (of_inUserInfo (hs.user c hc)).2.2.1
  obtain ⟨htake, hdrop⟩ := takeWhile_append_of_noneAhead hauthority htail
  rw [readWeb, hslash, htake, hdrop, cutUser?_text hat]
  simp only [server, takeHost_text hs.host, hhost, Host.parse_text hn hs.host,
    readPort_portText hs.port, userInfo, cutPassword_text huser, tail, behind?_marked hbefore,
    takeWhile_marked hbefore, behind?_marked fun c hc => (hpath c hc).1,
    takeWhile_marked fun c hc => (hpath c hc).1, escape_eq_self hs.user,
    escape_eq_self hs.password, hescape hs.query, hescape hs.fragment]
  rw [pathText, readPath_text hs.path_ne_nil hs.path]
  rfl

theorem text_shown (hs : u.Sound naming) : ∀ c ∈ u.text, 0x20 < c.toNat := by
  have hscheme : ∀ s : Scheme, ∀ c ∈ s.name.toList, 0x20 < c.toNat := by
    intro s c hc
    have hall : s.name.toList.all (0x20 < ·.toNat) = true := by cases s <;> decide
    exact of_decide_eq_true (List.all_eq_true.mp hall c hc)
  intro c hc
  rw [text_eq, List.mem_append] at hc
  rcases hc with hc | hc
  · exact hscheme u.scheme c hc
  · simp only [List.mem_cons, List.mem_append, server, tail] at hc
    rcases hc with rfl | rfl | rfl | ((hc | hc | hc) | (hc | hc) | hc)
    · decide
    · decide
    · decide
    · exact (of_mem_userText hs hc).1
    · exact (of_mem_hostText hs.host hc).1
    · exact (of_mem_portText hc).1
    · exact (of_mem_pathText hs hc).1
    · exact of_mem_marked (by decide) (fun q hq c hc => (of_inQuery (hs.query q hq c hc)).1) c hc
    · exact of_mem_marked (by decide) (fun f hf c hc => of_inFragment (hs.fragment f hf c hc)) c hc

/-- **The text of a sound address is read back.** -/
theorem read_text (hn : naming.Lawful) (hs : u.Sound naming) :
    Url.read u.text naming = .ok (.web u) := by
  rw [Url.read, cleaned_eq_self (text_shown hs), text_eq, takeScheme?_name]
  simp only [ofName?_name, readWeb_text hn hs]
  rfl

theorem sound_of_readPort {usual : Nat} {port : Option Nat}
    (h : readPort (some usual) cs = .ok port) : ∀ p ∈ port, p < 65536 ∧ p ≠ usual := by
  unfold readPort at h
  split at h
  · split at h
    · next ds hds =>
      cases h
      intro p hp
      split at hp
      · cases hp
      · next hother =>
        obtain rfl := Option.some.inj hp
        simp only [Bool.and_eq_true, decide_eq_true_eq] at hds
        simp only [Bool.or_eq_true, beq_iff_eq, Option.some.injEq, not_or] at hother
        exact ⟨hds.2, Ne.symm hother.2⟩
    · cases h
  · cases h
    nofun

/-- **What is read is sound.** -/
theorem sound_of_readWeb {s : Scheme} (hn : naming.Lawful) (h : readWeb s cs naming = .ok u) :
    u.Sound naming := by
  unfold readWeb at h
  simp only [] at h
  split at h
  · cases h
  · generalize takeHost false _ = cut at h
    cases hhost : Host.parse cut.1 naming with
    | error => simp [hhost, bind, Except.bind] at h
    | ok host =>
      cases hport : readPort (some s.defaultPort) cut.2 with
      | error => simp [hhost, hport, bind, Except.bind] at h
      | ok port =>
        simp only [hhost, hport] at h
        cases h
        exact {
          user := clean_escape_inUserInfo _
          password := clean_escape_inUserInfo _
          host := Host.sound_of_parse hn hhost
          port := sound_of_readPort hport
          path_ne_nil := readPath_ne_nil _
          path := fun p hp => pathPart_of_mem_readPath p hp
          query := by
            intro q hq
            obtain ⟨cs, -, rfl⟩ := Option.map_eq_some_iff.mp hq
            exact clean_escape_inQuery cs
          fragment := by
            intro f hf
            obtain ⟨cs, -, rfl⟩ := Option.map_eq_some_iff.mp hf
            exact clean_escape_inFragment cs }

theorem sound_of_read (hn : naming.Lawful) (h : Url.read cs naming = .ok (.web u)) :
    u.Sound naming := by
  unfold Url.read at h
  split at h
  · cases h
  · split at h
    · next rest _ _ s _ =>
      cases hweb : readWeb s rest naming with
      | error => rw [hweb] at h; cases h
      | ok v =>
        rw [hweb] at h
        cases h
        exact sound_of_readWeb hn hweb
    · simp only [] at h
      split at h <;> cases h

end LoadRig.Url
