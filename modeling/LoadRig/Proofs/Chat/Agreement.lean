import LoadRig.Chat.Reply
import LoadRig.Message.Item
import LoadRig.Proofs.Chat.Echo
import LoadRig.Proofs.Chat.Verdict
import LoadRig.Proofs.Time.Timestamp
/-!
# The writer of messages and the service agree

Messages are written in one place and read in another, and each place has a format of its own. For
every message they agree: what the service reads is what was meant, it accepts the message exactly if
the user, the length of the body and the year are in range, and an accepted message comes back in the
reply character by character as it was sent.

The body may hold any characters, and the moment may be any moment. The room is a number of
thirty-two bits, which is all that a message can carry.

## Main definitions

* `LoadRig.WorkItem.received` — what the service reads for a message.
* `LoadRig.WorkItem.Acceptable` — the user, the body and the year are in range.

## Main results

* `LoadRig.WorkItem.parse?_encode` — the service reads what was meant.
* `LoadRig.WorkItem.fault?_received_iff` — it finds no fault exactly with an acceptable message.
* `LoadRig.WorkItem.respond_of_acceptable` — it accepts that message.
* `LoadRig.WorkItem.respond_payload` — its reply.
-/

namespace LoadRig

open LoadRig.Text LoadRig.Json LoadRig.Time

namespace WorkItem

/-- What the service reads for a message that was written with a timestamp. -/
def received (item : WorkItem) (stamp : List Char) : ChatMessage :=
  { userId := some (digits item.userId)
    username := some item.username
    message := some item.body.toList
    timestamp := some stamp
    messageType := some item.kind.name.toList
    roomId := some (.int item.room) }

/-- The user, the body and the year of a message are in the range that the service accepts. -/
def Acceptable (item : WorkItem) : Prop :=
  (1 ≤ item.userId ∧ item.userId ≤ 100000) ∧ (1 ≤ item.body.length ∧ item.body.length ≤ 500) ∧
    (0 ≤ item.createdAt.year ∧ item.createdAt.year ≤ 9999)

/-! ### Reading -/

/-- What is read of a message is written as it was sent. -/
theorem encode_received (item : WorkItem) (stamp : List Char) :
    (item.received stamp).encode = item.encode stamp := by
  have hroom : intDigits item.room = digits item.room := rfl
  simp [ChatMessage.encode, ChatMessage.toValue, ChatMessage.members, received, encode, textMember,
    Value.compact, Value.compactMembers, hroom]

/-- **The service reads what was meant.** -/
theorem parse?_encode (item : WorkItem) (stamp : List Char) (hroom : item.room < narrowLimit) :
    ChatMessage.parse? (item.encode stamp) = some (item.received stamp) := by
  have hwide : item.room < wideLimit := hroom.trans (by decide)
  rw [← encode_received]
  refine ChatMessage.parse?_encode (fun v hv => ?_) fun v hv => ?_
  · obtain rfl := Option.some.inj hv
    exact .int (by omega) (Int.ofNat_lt.mpr hwide)
  · obtain rfl := Option.some.inj hv
    exact ⟨Value.noConfusion, .int deepest _⟩

/-! ### Rules -/

/-- A number is written in digits with its value. -/
theorem numeric_digits (n : Nat) : Numeric n (digits n) :=
  ⟨digits n, .inl rfl, digitRun_digits n,
    (digitsValue_eq_decimalValue _).symm.trans (digitsValue_digits n)⟩

theorem holds_userId_iff (item : WorkItem) (stamp : List Char) :
    Rule.userId.Holds offsetSigns (item.received stamp) ↔
      1 ≤ item.userId ∧ item.userId ≤ 100000 := by
  constructor
  · rintro ⟨_, hcs, n, hn, hrange⟩
    obtain rfl := Option.some.inj hcs
    rwa [hn.unique (numeric_digits item.userId)] at hrange
  · exact fun hrange => ⟨_, rfl, _, numeric_digits item.userId, hrange⟩

/-- The name of a user with an accepted id is accepted. -/
theorem holds_username {item : WorkItem} (h : item.userId ≤ 100000) (stamp : List Char) :
    Rule.username.Holds offsetSigns (item.received stamp) := by
  have hlen : (digits item.userId).length ≤ 6 := length_digits_le (by decide) (by omega)
  have hfour : item.username.length = (digits item.userId).length + 4 := by
    simp [username, usernameOf]
  refine ⟨_, rfl, by omega, by omega, fun c hc => ?_⟩
  rcases List.mem_append.mp hc with hc | hc
  · exact List.all_eq_true.mp (by decide : ['u', 's', 'e', 'r'].all Char.isAlphanum = true) c hc
  · simp [Char.isAlphanum, isDigit_of_mem_digits hc]

theorem holds_message_iff (item : WorkItem) (stamp : List Char) :
    Rule.message.Holds offsetSigns (item.received stamp) ↔
      1 ≤ item.body.length ∧ item.body.length ≤ 500 := by
  rw [← String.length_toList]
  constructor
  · rintro ⟨_, hcs, hrange⟩
    obtain rfl := Option.some.inj hcs
    exact hrange
  · exact fun hrange => ⟨_, rfl, hrange⟩

theorem holds_timestamp_iff (item : WorkItem) :
    Rule.timestamp.Holds offsetSigns (item.received item.createdAt.text) ↔
      0 ≤ item.createdAt.year ∧ item.createdAt.year ≤ 9999 := by
  rw [← isTimestamp_text_iff, isTimestamp_iff]
  constructor
  · rintro ⟨_, hcs, htime⟩
    obtain rfl := Option.some.inj hcs
    exact htime
  · exact fun htime => ⟨_, rfl, htime⟩

theorem holds_messageType (item : WorkItem) (stamp : List Char) :
    Rule.messageType.Holds offsetSigns (item.received stamp) :=
  ⟨_, rfl, by cases item.kind <;> decide⟩

/-- **The service finds no fault exactly with an acceptable message.** -/
theorem fault?_received_iff (item : WorkItem) :
    (item.received item.createdAt.text).fault? = none ↔ item.Acceptable := by
  rw [fault?_eq_none_iff, Acceptable, ← item.holds_userId_iff item.createdAt.text,
    ← item.holds_message_iff item.createdAt.text, ← item.holds_timestamp_iff]
  constructor
  · exact fun h => ⟨h .userId, h .message, h .timestamp⟩
  · rintro ⟨huser, hbody, htime⟩ r
    cases r with
    | userId => exact huser
    | username => exact holds_username ((item.holds_userId_iff _).mp huser).2 _
    | message => exact hbody
    | timestamp => exact htime
    | messageType => exact item.holds_messageType _

/-! ### Replies -/

/-- The text of the reply to an accepted message. -/
theorem text_ok (stamp : List Char) (m : ChatMessage) :
    (Reply.ok stamp m).text =
      '\x7b' :: (textMember "status".toList "OK".toList ++
        ',' :: (textMember "serverTimestamp".toList stamp ++
          ',' :: (quoted "originalMessage".toList ++ ':' :: (m.encode ++ ['\x7d'])))) := by
  simp [Reply.text, Reply.toValue, Value.record, Value.compact, Value.compactMembers,
    Value.ofString, textMember, ChatMessage.encode]

/-- An acceptable message is accepted. -/
theorem respond_of_acceptable {item : WorkItem} (h : item.Acceptable) (stamp : List Char)
    (hroom : item.room < narrowLimit) :
    respond stamp item.payload.toList = .ok stamp (item.received item.createdAt.text) := by
  have hpayload : item.payload.toList = item.encode item.createdAt.text := by simp [payload]
  rw [respond, hpayload, parse?_encode item item.createdAt.text hroom]
  simp only [item.fault?_received_iff.mpr h]

/-- **The writer of messages and the service agree.** The service accepts the payload of a message
exactly if the user, the length of the body and the year are in range; and then the reply holds the
payload, character by character, as the original message. -/
theorem respond_payload (item : WorkItem) (stamp : List Char) (hroom : item.room < narrowLimit) :
    ((∃ m, respond stamp item.payload.toList = .ok stamp m) ↔ item.Acceptable) ∧
      ∀ m, respond stamp item.payload.toList = .ok stamp m →
        m.encode = item.payload.toList ∧
        (respond stamp item.payload.toList).text =
          '\x7b' :: (textMember "status".toList "OK".toList ++
            ',' :: (textMember "serverTimestamp".toList stamp ++
              ',' :: (quoted "originalMessage".toList ++
                ':' :: (item.payload.toList ++ ['\x7d'])))) := by
  have hpayload : item.payload.toList = item.encode item.createdAt.text := by simp [payload]
  have hread := parse?_encode item item.createdAt.text hroom
  have hiff := item.fault?_received_iff
  cases hf : (item.received item.createdAt.text).fault? with
  | some f =>
    have hreply : respond stamp item.payload.toList = .error f.message := by
      simp only [respond, hpayload, hread, hf]
    rw [hf] at hiff
    rw [hreply]
    refine ⟨⟨?_, fun hok => ?_⟩, ?_⟩
    · rintro ⟨m, hm⟩
      cases hm
    · cases hiff.mpr hok
    · intro m hm
      cases hm
  | none =>
    have hreply : respond stamp item.payload.toList
        = .ok stamp (item.received item.createdAt.text) := by
      simp only [respond, hpayload, hread, hf]
    rw [hreply, hpayload]
    refine ⟨iff_of_true ⟨_, rfl⟩ (hiff.mp hf), ?_⟩
    intro m hm
    obtain ⟨-, rfl⟩ := Reply.ok.inj hm
    rw [text_ok, encode_received]
    exact ⟨rfl, rfl⟩

/-- A message with a quote and a line break, made in a leap second. -/
def leapGreeting : WorkItem :=
  { userId := 42
    body := "say \"hi\"\n"
    createdAt := { seconds := 1483228799, nanos := 1500000000 }
    kind := .join
    room := 3 }

/-- It is accepted, and comes back as it was sent. -/
theorem respond_leapGreeting : leapGreeting.room < narrowLimit ∧
    ∃ m, respond ['n', 'o', 'w'] leapGreeting.payload.toList = .ok ['n', 'o', 'w'] m ∧
      m.encode = leapGreeting.payload.toList := by
  have hroom : leapGreeting.room < narrowLimit := by decide
  obtain ⟨hiff, hok⟩ := respond_payload leapGreeting ['n', 'o', 'w'] hroom
  have hgood : leapGreeting.Acceptable := by
    refine ⟨by decide, ?_, by decide⟩
    show 1 ≤ "say \"hi\"\n".length ∧ "say \"hi\"\n".length ≤ 500
    decide
  obtain ⟨m, hm⟩ := hiff.mpr hgood
  exact ⟨hroom, m, hm, (hok m hm).1⟩

end WorkItem

end LoadRig
