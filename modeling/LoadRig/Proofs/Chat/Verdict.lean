import LoadRig.Chat.Reply
import LoadRig.Proofs.Text.Digits
import LoadRig.Proofs.Time.Rfc3339
import Mathlib
/-!
# What the service says of a message

There are five rules for a message, each about one member, and they have an order. A text frame is
accepted exactly if it holds a message that keeps all of them. Otherwise the reply says why: the text
holds no message at all, or it names what is wrong with the first member, in that order, whose rule is
broken.

The rules are stated here for what a member may be, without a word about how it is checked. A user id
is a number of any length with any number of leading zeros; its value is that of its digits, and a value
that does not fit into thirty-two bits is out of range like any other, though the reply then calls it no
number.

## Main definitions

* `LoadRig.Rule`, `LoadRig.Rule.Holds` — the rules.
* `LoadRig.Fault.Explains` — what is the matter with a message, for each thing that a reply may name.
* `LoadRig.ReplyDue` — which reply a text frame deserves.

## Main results

* `LoadRig.Fault.Explains.not_holds` — whatever is the matter with a message breaks a rule.
* `LoadRig.replyDue_respond` — every text frame gets the reply that it deserves.
-/

namespace LoadRig

open LoadRig.Text LoadRig.Json LoadRig.Time

/-! ### User ids -/

/-- The value of decimal digits, the most significant first. -/
def decimalValue (ds : List Char) : Nat := Nat.ofDigits 10 (ds.reverse.map digitValue)

theorem digitsValue_eq_decimalValue (ds : List Char) : digitsValue ds = decimalValue ds := by
  induction ds using List.reverseRecOn with
  | nil => rfl
  | append_singleton ds d ih =>
    rw [digitsValue_append_singleton, ih, decimalValue, decimalValue, List.reverse_append,
      List.reverse_singleton, List.singleton_append, List.map_cons, Nat.ofDigits_cons]
    omega

/-- A number: decimal digits, with one plus sign before them or none. -/
def Numeric (n : Nat) (cs : List Char) : Prop :=
  ∃ ds, (cs = ds ∨ cs = '+' :: ds) ∧ DigitRun ds ∧ decimalValue ds = n

theorem readDigits?_eq_some_iff {ds : List Char} {n : Nat} :
    readDigits? ds = some n ↔ DigitRun ds ∧ decimalValue ds = n := by
  rw [readDigits?, DigitRun, ← digitsValue_eq_decimalValue]
  split
  · next hbad =>
    simp only [Bool.or_eq_true, List.isEmpty_iff, Bool.not_eq_true', List.all_eq_false] at hbad
    refine iff_of_false (by simp) ?_
    rintro ⟨⟨hne, hall⟩, -⟩
    rcases hbad with hnil | ⟨c, hc, hdigit⟩
    · exact hne hnil
    · exact hdigit (hall c hc)
  · next hgood =>
    simp only [Bool.or_eq_true, List.isEmpty_iff, Bool.not_eq_true', Bool.not_eq_false,
      List.all_eq_true, not_or] at hgood
    rw [Option.some.injEq]
    exact (and_iff_right hgood).symm

/-- Behind a plus sign, or else from the beginning, a number is its digits. -/
theorem numeric_iff {cs ds : List Char} (h : ds = match cs with | '+' :: rest => rest | _ => cs)
    {n : Nat} : Numeric n cs ↔ DigitRun ds ∧ decimalValue ds = n := by
  have hplus {rest : List Char} (hd : DigitRun ('+' :: rest)) : False := by
    have := hd.2 '+' List.mem_cons_self
    cases this
  split at h
  · next rest =>
    subst h
    constructor
    · rintro ⟨ds', rfl | h, hd, hn⟩
      · exact (hplus hd).elim
      · exact (List.cons.inj h).2 ▸ ⟨hd, hn⟩
    · rintro ⟨hd, hn⟩
      exact ⟨ds, .inr rfl, hd, hn⟩
  · next hno =>
    subst h
    constructor
    · rintro ⟨ds', rfl | rfl, hd, hn⟩
      · exact ⟨hd, hn⟩
      · exact (hno ds' rfl).elim
    · rintro ⟨hd, hn⟩
      exact ⟨ds, .inl rfl, hd, hn⟩

/-- A text is at most one number. -/
theorem Numeric.unique {n n' : Nat} {cs : List Char} (h : Numeric n cs) (h' : Numeric n' cs) :
    n = n' := by
  rw [numeric_iff rfl] at h h'
  exact h.2.symm.trans h'.2

/-- **A user id is read if it is a number of thirty-two bits.** -/
theorem readUserId?_eq_some_iff {cs : List Char} {n : Nat} :
    readUserId? cs = some n ↔ Numeric n cs ∧ n < narrowLimit := by
  unfold readUserId?
  rw [numeric_iff rfl, ← readDigits?_eq_some_iff]
  simp only
  cases readDigits? (match cs with | '+' :: rest => rest | _ => cs) with
  | none => simp
  | some k =>
    simp only [Option.ite_none_right_eq_some, Option.some.injEq]
    constructor
    · rintro ⟨hlt, rfl⟩
      exact ⟨rfl, hlt⟩
    · rintro ⟨rfl, hlt⟩
      exact ⟨hlt, rfl⟩

/-! ### The rules -/

/-- The rules for a message, each named by the member that it is about. -/
inductive Rule where
  | userId
  | username
  | message
  | timestamp
  | messageType
deriving DecidableEq, Repr

/-- The rules in the order in which they count. -/
def Rule.all : List Rule := [.userId, .username, .message, .timestamp, .messageType]

/-- The names of the kinds of messages. -/
def kindNames : List (List Char) := ["TEXT".toList, "JOIN".toList, "LEAVE".toList]

/-- A message keeps a rule, where timestamps may have the given signs in their offsets. -/
def Rule.Holds (signs : List Char) (m : ChatMessage) : Rule → Prop
  | userId => ∃ cs ∈ m.userId, ∃ n, Numeric n cs ∧ 1 ≤ n ∧ n ≤ 100000
  | username => ∃ cs ∈ m.username, 3 ≤ cs.length ∧ cs.length ≤ 20 ∧ ∀ c ∈ cs, c.isAlphanum = true
  | message => ∃ cs ∈ m.message, 1 ≤ cs.length ∧ cs.length ≤ 500
  | timestamp => ∃ cs ∈ m.timestamp, TimestampSpelled signs cs
  | messageType => ∃ cs ∈ m.messageType, cs ∈ kindNames

/-- A rule is broken and those before it are kept. -/
def Rule.FirstBroken (signs : List Char) (m : ChatMessage) (r : Rule) : Prop :=
  ∃ front back, Rule.all = front ++ r :: back ∧ (∀ r' ∈ front, r'.Holds signs m) ∧ ¬ r.Holds signs m

/-- Nothing but white space stands in a member, if it is there at all. -/
def Missing (text : Option (List Char)) : Prop := ∀ cs ∈ text, ∀ c ∈ cs, isBlank c = true

/-- The rule that a reply has in mind. -/
def Fault.rule : Fault → Rule
  | userIdMissing | userIdNotNumeric | userIdOutOfRange => .userId
  | usernameMissing | usernameLength | usernameCharacters => .username
  | messageMissing | messageLength => .message
  | timestampMissing | timestampMalformed => .timestamp
  | kindUnknown => .messageType

/-- What is the matter with a message. -/
def Fault.Explains (m : ChatMessage) : Fault → Prop
  | userIdMissing => Missing m.userId
  | userIdNotNumeric => ¬ Missing m.userId ∧ ∀ cs ∈ m.userId, ∀ n, Numeric n cs → narrowLimit ≤ n
  | userIdOutOfRange => ∃ cs ∈ m.userId, ∃ n, Numeric n cs ∧ n < narrowLimit ∧ ¬ (1 ≤ n ∧ n ≤ 100000)
  | usernameMissing => Missing m.username
  | usernameLength => ¬ Missing m.username ∧ ∀ cs ∈ m.username, ¬ (3 ≤ cs.length ∧ cs.length ≤ 20)
  | usernameCharacters => ¬ Missing m.username ∧
      ∃ cs ∈ m.username, (3 ≤ cs.length ∧ cs.length ≤ 20) ∧ ∃ c ∈ cs, c.isAlphanum = false
  | messageMissing => ∀ cs ∈ m.message, cs = []
  | messageLength => ∃ cs ∈ m.message, 500 < cs.length
  | timestampMissing => Missing m.timestamp
  | timestampMalformed => ¬ Missing m.timestamp ∧
      ∀ cs ∈ m.timestamp, ¬ TimestampSpelled offsetSigns cs
  | kindUnknown => ∀ cs ∈ m.messageType, cs ∉ kindNames

/-! ### Blanks -/

theorem missing_iff {text : Option (List Char)} :
    Missing text ↔ allBlank (text.getD []) = true := by
  cases text <;> simp [Missing, allBlank]

theorem exists_of_not_missing {text : Option (List Char)} (h : ¬ Missing text) :
    ∃ cs, text = some cs := by
  cases text with
  | none => exact absurd (fun _ hcs => by cases hcs) h
  | some cs => exact ⟨cs, rfl⟩

theorem not_missing {text : Option (List Char)} {cs : List Char} (h : cs ∈ text) {c : Char}
    (hc : c ∈ cs) (hb : isBlank c = false) : ¬ Missing text := by
  intro hmissing
  rw [hmissing cs h c hc] at hb
  cases hb

theorem isBlank_of_isAlphanum {c : Char} (h : c.isAlphanum = true) : isBlank c = false := by
  have hrange : (65 ≤ c.toNat ∧ c.toNat ≤ 90) ∨ (97 ≤ c.toNat ∧ c.toNat ≤ 122) ∨
      (48 ≤ c.toNat ∧ c.toNat ≤ 57) := by
    have hclass : ((c.isUpper || c.isLower) || c.isDigit) = true := h
    simp only [Bool.or_eq_true, or_assoc] at hclass
    rcases hclass with hupper | hlower | hdigit
    · exact .inl (of_decide_eq_true hupper : 'A'.val ≤ c.val ∧ c.val ≤ 'Z'.val)
    · obtain ⟨hleast, hmost⟩ := Bool.and_eq_true_iff.mp hlower
      exact .inr (.inl ⟨of_decide_eq_true hleast, of_decide_eq_true hmost⟩)
    · exact .inr (.inr (Char.isDigit_iff_toNat.mp hdigit))
  simp [isBlank, blankRanges]
  omega

theorem isBlank_of_isDigit {c : Char} (h : c.isDigit = true) : isBlank c = false :=
  isBlank_of_isAlphanum (by simp [Char.isAlphanum, h])

theorem DigitRun.exists_not_blank {ds : List Char} (h : DigitRun ds) :
    ∃ c ∈ ds, isBlank c = false := by
  obtain ⟨c, ds', rfl⟩ := List.exists_cons_of_ne_nil h.1
  exact ⟨c, .head _, isBlank_of_isDigit (h.2 c (.head _))⟩

theorem Numeric.exists_not_blank {n : Nat} {cs : List Char} (h : Numeric n cs) :
    ∃ c ∈ cs, isBlank c = false := by
  obtain ⟨ds, hcs, hd, -⟩ := h
  obtain ⟨c, hc, hb⟩ := DigitRun.exists_not_blank hd
  rcases hcs with rfl | rfl
  · exact ⟨c, hc, hb⟩
  · exact ⟨c, .tail _ hc, hb⟩

theorem exists_not_blank_of_timestamp {signs cs : List Char} (h : TimestampSpelled signs cs) :
    ∃ c ∈ cs, isBlank c = false := by
  cases h with
  | @mk _ _ _ _ _ _ y _ _ _ _ _ _ _ _ hy =>
    obtain ⟨c, y', rfl⟩ := List.exists_cons_of_length_eq_add_one hy.length_eq
    exact ⟨c, .head _, isBlank_of_isDigit (hy.digit c (.head _))⟩

/-! ### Checks -/

/-- The check of a rule. -/
def Rule.fault? (m : ChatMessage) : Rule → Option Fault
  | userId => ChatMessage.userIdFault? (m.userId.getD [])
  | username => ChatMessage.usernameFault? (m.username.getD [])
  | message => ChatMessage.bodyFault? (m.message.getD [])
  | timestamp => ChatMessage.timestampFault? (m.timestamp.getD [])
  | messageType => ChatMessage.kindFault? m.messageType

/-- The checks are made one after the other. -/
theorem fault?_eq_findSome? (m : ChatMessage) : m.fault? = Rule.all.findSome? (Rule.fault? m) := by
  have hcons (r : Rule) (rs : List Rule) :
      (r :: rs).findSome? (Rule.fault? m) = (Rule.fault? m r).or (rs.findSome? (Rule.fault? m)) := by
    rw [List.findSome?_cons]
    cases Rule.fault? m r <;> rfl
  simp only [ChatMessage.fault?, Rule.all, hcons, List.findSome?_nil, Rule.fault?, Option.or_none]

/-- A check is right: where it finds nothing the rule is kept, and what it finds is the matter. -/
def Judged (m : ChatMessage) (r : Rule) : Option Fault → Prop
  | none => r.Holds offsetSigns m
  | some f => f.rule = r ∧ f.Explains m

theorem judged_userId (m : ChatMessage) : Judged m .userId (Rule.fault? m .userId) := by
  rw [Rule.fault?, ChatMessage.userIdFault?]
  split
  · next hblank => exact ⟨rfl, missing_iff.mpr hblank⟩
  · next hblank =>
    have hthere : ¬ Missing m.userId := missing_iff.not.mpr hblank
    obtain ⟨cs, hcs⟩ := exists_of_not_missing hthere
    rw [hcs, Option.getD_some]
    split
    · next hread =>
      refine ⟨rfl, hthere, fun cs' hcs' n hn => ?_⟩
      obtain rfl := Option.mem_unique hcs hcs'
      by_contra hlt
      rw [readUserId?_eq_some_iff.mpr ⟨hn, not_le.mp hlt⟩] at hread
      cases hread
    · next n hread =>
      obtain ⟨hn, hlt⟩ := readUserId?_eq_some_iff.mp hread
      simp only [Bool.and_eq_true, decide_eq_true_eq]
      split
      · next hrange => exact ⟨cs, hcs, n, hn, hrange⟩
      · next hrange => exact ⟨rfl, cs, hcs, n, hn, hlt, hrange⟩

theorem judged_username (m : ChatMessage) : Judged m .username (Rule.fault? m .username) := by
  rw [Rule.fault?, ChatMessage.usernameFault?]
  split
  · next hblank => exact ⟨rfl, missing_iff.mpr hblank⟩
  · next hblank =>
    have hthere : ¬ Missing m.username := missing_iff.not.mpr hblank
    obtain ⟨cs, hcs⟩ := exists_of_not_missing hthere
    rw [hcs, Option.getD_some]
    split
    · next hlength =>
      refine ⟨rfl, hthere, fun cs' hcs' hrange => ?_⟩
      obtain rfl := Option.mem_unique hcs hcs'
      simp [hrange] at hlength
    · next hlength =>
      simp only [Bool.not_eq_true', Bool.not_eq_false, Bool.and_eq_true, decide_eq_true_eq] at hlength
      split
      · next hall =>
        simp only [Bool.not_eq_true', List.all_eq_false, Bool.not_eq_true] at hall
        exact ⟨rfl, hthere, cs, hcs, hlength, hall⟩
      · next hall =>
        simp only [Bool.not_eq_true', Bool.not_eq_false, List.all_eq_true] at hall
        exact ⟨cs, hcs, hlength.1, hlength.2, hall⟩

theorem judged_message (m : ChatMessage) : Judged m .message (Rule.fault? m .message) := by
  rw [Rule.fault?, ChatMessage.bodyFault?]
  split
  · next hempty =>
    refine ⟨rfl, fun cs hcs => ?_⟩
    rw [Option.mem_def.mp hcs] at hempty
    exact List.isEmpty_iff.mp hempty
  · next hempty =>
    cases hm : m.message with
    | none => simp [hm] at hempty
    | some cs =>
      simp only [hm, Option.getD_some, List.isEmpty_iff] at hempty ⊢
      rw [longestMessage]
      split
      · next hlong => exact ⟨rfl, cs, hm, hlong⟩
      · next hlong => exact ⟨cs, hm, List.length_pos_of_ne_nil hempty, not_lt.mp hlong⟩

theorem judged_timestamp (m : ChatMessage) : Judged m .timestamp (Rule.fault? m .timestamp) := by
  rw [Rule.fault?, ChatMessage.timestampFault?]
  split
  · next hblank => exact ⟨rfl, missing_iff.mpr hblank⟩
  · next hblank =>
    have hthere : ¬ Missing m.timestamp := missing_iff.not.mpr hblank
    obtain ⟨cs, hcs⟩ := exists_of_not_missing hthere
    rw [hcs, Option.getD_some]
    split
    · next hbad =>
      refine ⟨rfl, hthere, fun cs' hcs' htime => ?_⟩
      obtain rfl := Option.mem_unique hcs hcs'
      rw [isTimestamp_iff.mpr htime] at hbad
      cases hbad
    · next hgood => exact ⟨cs, hcs, isTimestamp_iff.mp (by simpa using hgood)⟩

theorem judged_messageType (m : ChatMessage) :
    Judged m .messageType (Rule.fault? m .messageType) := by
  have hnames (k : List Char) :
      (MessageKind.all.map (·.name.toList)).contains k = true ↔ k ∈ kindNames :=
    List.contains_iff_mem
  rw [Rule.fault?, ChatMessage.kindFault?.eq_def]
  split
  · next k hk =>
    split
    · next hin => exact ⟨k, hk, (hnames k).mp hin⟩
    · next hout =>
      refine ⟨rfl, fun k' hk' hin => hout ((hnames k).mpr ?_)⟩
      rwa [Option.mem_unique hk hk']
  · next hnone => exact ⟨rfl, fun k hk => by rw [hnone] at hk; cases hk⟩

theorem judged (m : ChatMessage) (r : Rule) : Judged m r (Rule.fault? m r) := by
  cases r with
  | userId => exact judged_userId m
  | username => exact judged_username m
  | message => exact judged_message m
  | timestamp => exact judged_timestamp m
  | messageType => exact judged_messageType m

/-- **Whatever is the matter with a message breaks a rule.** -/
theorem Fault.Explains.not_holds {m : ChatMessage} {f : Fault} (h : f.Explains m) :
    ¬ f.rule.Holds offsetSigns m := by
  cases f with
  | userIdMissing =>
    rintro ⟨cs, hcs, n, hn, -⟩
    obtain ⟨c, hc, hb⟩ := hn.exists_not_blank
    exact not_missing hcs hc hb h
  | userIdNotNumeric =>
    rintro ⟨cs, hcs, n, hn, -, hmost⟩
    have hlarge : narrowLimit ≤ n := h.2 cs hcs n hn
    rw [narrowLimit] at hlarge
    omega
  | userIdOutOfRange =>
    obtain ⟨cs, hcs, n, hn, hlt, hout⟩ := h
    rintro ⟨cs', hcs', n', hn', hrange⟩
    obtain rfl := Option.mem_unique hcs hcs'
    exact hout (hn.unique hn' ▸ hrange)
  | usernameMissing =>
    rintro ⟨cs, hcs, hleast, -, hall⟩
    obtain ⟨c, cs', rfl⟩ := List.exists_cons_of_length_pos (by omega : 0 < cs.length)
    exact not_missing hcs (.head _) (isBlank_of_isAlphanum (hall c (.head _))) h
  | usernameLength =>
    rintro ⟨cs, hcs, hleast, hmost, -⟩
    exact h.2 cs hcs ⟨hleast, hmost⟩
  | usernameCharacters =>
    obtain ⟨-, cs, hcs, -, c, hc, hbad⟩ := h
    rintro ⟨cs', hcs', -, -, hall⟩
    obtain rfl := Option.mem_unique hcs hcs'
    rw [hall c hc] at hbad
    cases hbad
  | messageMissing =>
    rintro ⟨cs, hcs, hleast, -⟩
    rw [h cs hcs] at hleast
    cases hleast
  | messageLength =>
    obtain ⟨cs, hcs, hlong⟩ := h
    rintro ⟨cs', hcs', -, hmost⟩
    obtain rfl := Option.mem_unique hcs hcs'
    omega
  | timestampMissing =>
    rintro ⟨cs, hcs, htime⟩
    obtain ⟨c, hc, hb⟩ := exists_not_blank_of_timestamp htime
    exact not_missing hcs hc hb h
  | timestampMalformed =>
    rintro ⟨cs, hcs, htime⟩
    exact h.2 cs hcs htime
  | kindUnknown =>
    rintro ⟨cs, hcs, hin⟩
    exact h cs hcs hin

theorem Rule.fault?_eq_none_iff {m : ChatMessage} {r : Rule} :
    Rule.fault? m r = none ↔ r.Holds offsetSigns m := by
  have hjudged := judged m r
  cases hf : Rule.fault? m r with
  | none =>
    rw [hf] at hjudged
    exact iff_of_true rfl hjudged
  | some f =>
    rw [hf] at hjudged
    obtain ⟨rfl, hwhy⟩ := hjudged
    exact iff_of_false (by simp) hwhy.not_holds

/-- **A message has no fault exactly if it keeps all rules.** -/
theorem fault?_eq_none_iff {m : ChatMessage} :
    m.fault? = none ↔ ∀ r : Rule, r.Holds offsetSigns m := by
  rw [fault?_eq_findSome?, List.findSome?_eq_none_iff]
  simp only [Rule.fault?_eq_none_iff]
  exact ⟨fun h r => h r (by cases r <;> decide), fun h r _ => h r⟩

/-- **A fault is the matter with the first member whose rule is broken.** -/
theorem firstBroken_of_fault? {m : ChatMessage} {f : Fault} (h : m.fault? = some f) :
    f.rule.FirstBroken offsetSigns m ∧ f.Explains m := by
  rw [fault?_eq_findSome?, List.findSome?_eq_some_iff] at h
  obtain ⟨front, r, back, hall, hf, hfront⟩ := h
  have hjudged := judged m r
  rw [hf] at hjudged
  obtain ⟨rfl, hwhy⟩ := hjudged
  exact ⟨⟨front, back, hall, fun r' hr' => Rule.fault?_eq_none_iff.mp (hfront r' hr'), hwhy.not_holds⟩,
    hwhy⟩

/-! ### Replies -/

/-- Which reply a text frame deserves that is answered at the moment written as `stamp`. -/
inductive ReplyDue (stamp payload : List Char) : Value → Prop
  | accepted {m : ChatMessage} (hread : ChatMessage.parse? payload = some m)
      (hrules : ∀ r : Rule, r.Holds offsetSigns m) :
      ReplyDue stamp payload (.record [("status", .ofString "OK"), ("serverTimestamp", .string stamp),
        ("originalMessage", m.toValue)])
  | unreadable (hread : ChatMessage.parse? payload = none) :
      ReplyDue stamp payload (.record [("status", .ofString "ERROR"),
        ("error", .ofString "Invalid JSON format")])
  | refused {m : ChatMessage} {f : Fault} (hread : ChatMessage.parse? payload = some m)
      (hbroken : f.rule.FirstBroken offsetSigns m) (hwhy : f.Explains m) :
      ReplyDue stamp payload (.record [("status", .ofString "ERROR"), ("error", .ofString f.message)])

/-- A reply says that the message was accepted. -/
def Reply.IsOk (r : Reply) : Prop := r.toValue.member? "status" = some (.ofString "OK")

theorem Reply.isOk_ok (stamp : List Char) (m : ChatMessage) : (Reply.ok stamp m).IsOk := rfl

theorem Reply.not_isOk_error (reason : String) : ¬ (Reply.error reason).IsOk := by
  intro h
  have hstatus : Value.ofString "ERROR" = Value.ofString "OK" := Option.some.inj h
  exact absurd (Value.string.inj hstatus) (by decide)

/-- **Every text frame gets the reply that it deserves.** It is accepted exactly if it holds a message
that keeps all rules, and the reply is the one of the three that fits, member by member. -/
theorem replyDue_respond (stamp payload : List Char) :
    ((respond stamp payload).IsOk ↔
      ∃ m, ChatMessage.parse? payload = some m ∧ ∀ r : Rule, r.Holds offsetSigns m) ∧
    ReplyDue stamp payload (respond stamp payload).toValue := by
  cases hread : ChatMessage.parse? payload with
  | none =>
    have hreply : respond stamp payload = .error malformed := by rw [respond, hread]
    rw [hreply]
    exact ⟨iff_of_false (Reply.not_isOk_error _) (by simp), .unreadable hread⟩
  | some m =>
    cases hfault : m.fault? with
    | some f =>
      have hreply : respond stamp payload = .error f.message := by
        simp only [respond, hread, hfault]
      obtain ⟨hbroken, hwhy⟩ := firstBroken_of_fault? hfault
      rw [hreply]
      refine ⟨iff_of_false (Reply.not_isOk_error _) ?_, .refused hread hbroken hwhy⟩
      rintro ⟨m', hm', hrules⟩
      obtain rfl := Option.some.inj hm'
      exact hwhy.not_holds (hrules f.rule)
    | none =>
      have hreply : respond stamp payload = .ok stamp m := by
        simp only [respond, hread, hfault]
      have hrules := fault?_eq_none_iff.mp hfault
      rw [hreply]
      exact ⟨iff_of_true (Reply.isOk_ok stamp m) ⟨m, rfl, hrules⟩, .accepted hread hrules⟩

/-- A message whose timestamp has the mathematical minus sign in its offset. -/
def minusMessage : ChatMessage :=
  { userId := some ['7']
    username := some ['b', 'o', 'b']
    message := some ['A']
    timestamp := some "2025-01-01T00:00:00\u221201:00".toList
    messageType := some "JOIN".toList
    roomId := none }

/-- The text of this message. -/
def minusPayload : List Char :=
  ("\x7b\"userId\":\"7\",\"username\":\"bob\",\"message\":\"A\"," ++
    "\"timestamp\":\"2025-01-01T00:00:00\u221201:00\",\"messageType\":\"JOIN\"\x7d").toList

/-- **The signs of the RFC are not all that is accepted.** -/
theorem respond_minusPayload :
    ¬ ∀ stamp payload : List Char, (respond stamp payload).IsOk ↔
      ∃ m, ChatMessage.parse? payload = some m ∧ ∀ r : Rule, r.Holds rfcSigns m := by
  intro hall
  have hread : ChatMessage.parse? minusPayload = some minusMessage := by cbv
  have hreply : respond [] minusPayload = .ok [] minusMessage := by
    rw [respond, hread]
    cbv
  obtain ⟨m, hm, hrules⟩ := (hall [] minusPayload).mp (hreply ▸ Reply.isOk_ok [] minusMessage)
  obtain rfl := Option.some.inj (hread.symm.trans hm)
  obtain ⟨cs, hcs, htime⟩ := hrules .timestamp
  obtain rfl := Option.some.inj hcs
  have hminus : Admitted rfcSigns '\u2212' := htime.admitted _ (by decide)
  rcases hminus with h | h | h
  · cases h
  · exact absurd h (by decide)
  · exact absurd h (by decide)

end LoadRig
