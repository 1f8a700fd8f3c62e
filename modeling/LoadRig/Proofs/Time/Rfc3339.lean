import LoadRig.Proofs.Json.Recognition
import LoadRig.Time.Rfc3339
/-!
# What a timestamp is

The grammar of timestamps in RFC 3339, as a relation: a date, a separator, a time of day with a fraction
of a second or none, and an offset from universal time. The relation speaks of fields with values and
says nothing about how a text is taken apart.

Which characters are signs of an offset is left open. The RFC knows the plus sign and the hyphen; the
check also takes the mathematical minus sign, and apart from that it is the grammar of the RFC.

## Main definitions

* `LoadRig.Time.Number` — so many digits with a value.
* `LoadRig.Time.OffsetSpelled` — an offset from universal time.
* `LoadRig.Time.TimestampSpelled` — a timestamp.

## Main results

* `LoadRig.Time.isTimestamp_iff` — the check accepts the timestamps and nothing else.
* `LoadRig.Time.TimestampSpelled.admitted` — the characters of a timestamp.
-/

namespace LoadRig.Time

open LoadRig.Text

/-! ### The grammar -/

/-- So many digits, with a value. -/
structure Number (width value : Nat) (cs : List Char) : Prop where
  length_eq : cs.length = width
  digit : ∀ c ∈ cs, c.isDigit = true
  value_eq : digitsValue cs = value

/-- The signs of offsets in the RFC. -/
def rfcSigns : List Char := ['+', '-']

/-- The signs of offsets that the check knows, the mathematical minus sign among them. -/
def offsetSigns : List Char := ['+', '-', '\u2212']

/-- An offset from universal time: its letter, or hours and minutes with a sign. -/
inductive OffsetSpelled (signs : List Char) : List Char → Prop
  | utc {z : Char} (hz : z = 'Z' ∨ z = 'z') : OffsetSpelled signs [z]
  | shift {sign : Char} {hours minutes : Nat} {h m : List Char} (hs : sign ∈ signs)
      (hh : Number 2 hours h) (hm : Number 2 minutes m) (h23 : hours ≤ 23) (h59 : minutes ≤ 59) :
      OffsetSpelled signs (sign :: (h ++ ':' :: m))

/-- A fraction of a second, or none. -/
def SecondsFraction (cs : List Char) : Prop := ∃ fraction, Json.FractionSpelled fraction cs

/-- A timestamp with an offset whose sign is one of the given characters. A second sixty is a leap
second. -/
inductive TimestampSpelled (signs : List Char) : List Char → Prop
  | mk {year month day hour minute second : Nat} {y mo d h mi s f o : List Char} {sep : Char}
      (hy : Number 4 year y) (hmo : Number 2 month mo) (hd : Number 2 day d)
      (hdate : 1 ≤ month ∧ month ≤ 12 ∧ 1 ≤ day ∧ day ≤ daysIn year month)
      (hsep : sep = 'T' ∨ sep = 't' ∨ sep = ' ')
      (hh : Number 2 hour h) (hmi : Number 2 minute mi) (hs : Number 2 second s)
      (htime : hour ≤ 23 ∧ minute ≤ 59 ∧ second ≤ 60)
      (hf : SecondsFraction f) (ho : OffsetSpelled signs o) :
      TimestampSpelled signs (y ++ '-' :: (mo ++ '-' :: (d ++ sep :: (h ++ ':' :: (mi ++ ':' ::
        (s ++ (f ++ o)))))))

/-! ### Fields -/

theorem takeNumber?_append {n v : Nat} {ds : List Char} (h : Number n v ds) (rest : List Char) :
    takeNumber? n (ds ++ rest) = some (v, rest) := by
  have htake : (ds ++ rest).take n = ds := List.take_left' h.length_eq
  have hdrop : (ds ++ rest).drop n = rest := List.drop_left' h.length_eq
  rw [takeNumber?, htake, hdrop, if_pos ⟨h.length_eq, List.all_eq_true.mpr h.digit⟩, h.value_eq]

theorem exists_number {n v : Nat} {cs rest : List Char} (h : takeNumber? n cs = some (v, rest)) :
    ∃ ds, Number n v ds ∧ cs = ds ++ rest := by
  rw [takeNumber?] at h
  split at h
  · next hcond =>
    obtain ⟨rfl, rfl⟩ := Prod.mk.inj (Option.some.inj h)
    exact ⟨cs.take n, ⟨hcond.1, List.all_eq_true.mp hcond.2, rfl⟩, (List.take_append_drop n cs).symm⟩
  · cases h

theorem takeChar?_eq_some_iff {p : Char → Bool} {cs rest : List Char} :
    takeChar? p cs = some rest ↔ ∃ c, p c = true ∧ cs = c :: rest := by
  cases cs with
  | nil => simp [takeChar?]
  | cons c cs =>
    by_cases hc : p c = true
    · simp [takeChar?, hc]
    · simp [takeChar?, hc]

/-- The fraction of a second is read like the fraction of a number. -/
theorem dropFraction?_eq (cs : List Char) :
    dropFraction? cs = (Json.readFraction? cs).map (·.2) := by
  by_cases hpoint : ∃ rest, cs = '.' :: rest
  · obtain ⟨rest, rfl⟩ := hpoint
    rw [dropFraction?, Json.readFraction?]
    split <;> rfl
  · have hno (rest : List Char) (h : cs = '.' :: rest) : False := hpoint ⟨rest, h⟩
    rw [dropFraction?, Json.readFraction?]
    · rfl
    · exact hno
    · exact hno

theorem bind_of_eq_some {α β : Type} {o : Option α} {a : α} (h : o = some a) {f : α → Option β} :
    (o >>= f) = f a := by
  rw [h]; rfl

theorem bind_takeChar? {β : Type} {p : Char → Bool} {c : Char} (h : p c = true) {rest : List Char}
    {f : List Char → Option β} : (takeChar? p (c :: rest) >>= f) = f rest :=
  bind_of_eq_some (by simp [takeChar?, h])

theorem getD_false_eq_true_iff {o : Option Bool} : o.getD false = true ↔ o = some true := by
  cases o <;> simp

/-! ### Offsets -/

theorem isOffsetSign_iff {c : Char} : isOffsetSign c = true ↔ c ∈ offsetSigns := by
  simp [isOffsetSign, offsetSigns, or_assoc]

/-- **The check of an offset accepts the offsets and nothing else.** -/
theorem isOffset_iff {cs : List Char} : isOffset cs = true ↔ OffsetSpelled offsetSigns cs := by
  constructor
  · intro h
    rw [isOffset.eq_def] at h
    split at h
    · exact .utc (.inl rfl)
    · exact .utc (.inr rfl)
    · simp only [getD_false_eq_true_iff, Option.bind_eq_bind, Option.bind_eq_some_iff,
        takeChar?_eq_some_iff] at h
      obtain ⟨_, ⟨sign, hsign, rfl⟩, ⟨hours, _⟩, hhours, _, ⟨colon, hcolon, rfl⟩, ⟨minutes, rest⟩,
        hminutes, h⟩ := h
      obtain ⟨hs, hh, rfl⟩ := exists_number hhours
      obtain ⟨ms, hm, rfl⟩ := exists_number hminutes
      obtain rfl := eq_of_beq hcolon
      have hrange := Option.some.inj h
      simp only [Bool.and_eq_true, decide_eq_true_eq, List.isEmpty_iff] at hrange
      obtain ⟨⟨h23, h59⟩, rfl⟩ := hrange
      rw [List.append_nil]
      exact .shift (isOffsetSign_iff.mp hsign) hh hm h23 h59
  · intro h
    cases h with
    | utc hz => rcases hz with rfl | rfl <;> rfl
    | @shift sign hours minutes h m hs hh hm h23 h59 =>
      have hm' := takeNumber?_append hm []
      rw [List.append_nil] at hm'
      rw [isOffset]
      · simp only [↓bind_takeChar? (isOffsetSign_iff.mpr hs), ↓bind_of_eq_some (takeNumber?_append hh _),
          ↓bind_takeChar?, ↓bind_of_eq_some hm', beq_self_eq_true]
        simp [h23, h59]
      · simp
      · simp

/-! ### Whole timestamps -/

/-- No offset begins with a digit or a point. -/
theorem OffsetSpelled.noneAhead {o : List Char} (h : OffsetSpelled offsetSigns o) {p : Char → Bool}
    (hp : ('Z' :: 'z' :: offsetSigns).any p = false) : NoneAhead p o := by
  intro c hc
  refine Bool.eq_false_iff.mpr (List.any_eq_false.mp hp c ?_)
  cases h with
  | utc hz =>
    obtain rfl := Option.some.inj hc
    rcases hz with rfl | rfl <;> simp
  | shift hs =>
    obtain rfl := Option.some.inj hc
    simp [hs]

/-- A text whose fields are read one after the other is a timestamp if their values are in range. -/
theorem isTimestamp_of_fields {year month day hour minute second : Nat} {sep : Char}
    {cs cs₁ cs₂ cs₃ cs₄ cs₅ cs₆ cs₇ : List Char}
    (hyear : takeNumber? 4 cs = some (year, '-' :: cs₁))
    (hmonth : takeNumber? 2 cs₁ = some (month, '-' :: cs₂))
    (hday : takeNumber? 2 cs₂ = some (day, sep :: cs₃))
    (hsep : (sep == 'T' || sep == 't' || sep == ' ') = true)
    (hhour : takeNumber? 2 cs₃ = some (hour, ':' :: cs₄))
    (hminute : takeNumber? 2 cs₄ = some (minute, ':' :: cs₅))
    (hsecond : takeNumber? 2 cs₅ = some (second, cs₆)) (hfrac : dropFraction? cs₆ = some cs₇) :
    isTimestamp cs = (isDate year month day && hour ≤ 23 && minute ≤ 59 && second ≤ 60 &&
      isOffset cs₇) := by
  -- the fields are rewritten from the outside in, each before anybody looks at what follows it
  simp only [isTimestamp, ↓bind_of_eq_some hyear, ↓bind_of_eq_some hmonth, ↓bind_of_eq_some hday,
    ↓bind_of_eq_some hhour, ↓bind_of_eq_some hminute, ↓bind_of_eq_some hsecond,
    ↓bind_of_eq_some hfrac, ↓bind_takeChar? (p := fun c => c == 'T' || c == 't' || c == ' ') hsep,
    ↓bind_takeChar?, beq_self_eq_true]
  rfl

/-- **The check accepts the timestamps and nothing else.** -/
theorem isTimestamp_iff {cs : List Char} :
    isTimestamp cs = true ↔ TimestampSpelled offsetSigns cs := by
  constructor
  · intro h
    simp only [isTimestamp, getD_false_eq_true_iff, Option.bind_eq_bind, Option.bind_eq_some_iff,
      takeChar?_eq_some_iff, dropFraction?_eq, Option.map_eq_some_iff] at h
    obtain ⟨⟨year, _⟩, hyear, _, ⟨dash, hdash, rfl⟩, ⟨month, _⟩, hmonth, _, ⟨dash', hdash', rfl⟩,
      ⟨day, _⟩, hday, _, ⟨sep, hsep, rfl⟩, ⟨hour, _⟩, hhour, _, ⟨colon, hcolon, rfl⟩, ⟨minute, _⟩,
      hminute, _, ⟨colon', hcolon', rfl⟩, ⟨second, rest⟩, hsecond, o, ⟨⟨fraction, _⟩, hfraction, rfl⟩,
      h⟩ := h
    obtain ⟨y, hy, rfl⟩ := exists_number hyear
    obtain ⟨mo, hmo, rfl⟩ := exists_number hmonth
    obtain ⟨d, hd, rfl⟩ := exists_number hday
    obtain ⟨h', hh, rfl⟩ := exists_number hhour
    obtain ⟨mi, hmi, rfl⟩ := exists_number hminute
    obtain ⟨s, hs, rfl⟩ := exists_number hsecond
    obtain ⟨f, rfl, hf⟩ := Json.spelled_of_readFraction? hfraction
    obtain rfl := eq_of_beq hdash
    obtain rfl := eq_of_beq hdash'
    obtain rfl := eq_of_beq hcolon
    obtain rfl := eq_of_beq hcolon'
    have hrange := Option.some.inj h
    simp only [Bool.and_eq_true, decide_eq_true_eq, isDate, isOffset_iff] at hrange
    obtain ⟨⟨⟨⟨⟨⟨⟨hm1, hm12⟩, hd1⟩, hdin⟩, h23⟩, h59⟩, h60⟩, ho⟩ := hrange
    simp only [Bool.or_eq_true, beq_iff_eq, or_assoc] at hsep
    exact .mk hy hmo hd ⟨hm1, hm12, hd1, hdin⟩ hsep hh hmi hs ⟨h23, h59, h60⟩ ⟨fraction, hf⟩ ho
  · intro h
    cases h with
    | @mk year month day hour minute second y mo d h mi s f o sep hy hmo hd hdate hsep hh hmi hs htime
        hf ho =>
      obtain ⟨fraction, hf⟩ := hf
      have hfrac : dropFraction? (f ++ o) = some o := by
        rw [dropFraction?_eq, Json.readFraction?_of_spelled hf (ho.noneAhead (by decide))
          (ho.noneAhead (by decide))]
        rfl
      have hsep' : (sep == 'T' || sep == 't' || sep == ' ') = true := by
        simpa [or_assoc] using hsep
      rw [isTimestamp_of_fields (takeNumber?_append hy _) (takeNumber?_append hmo _)
        (takeNumber?_append hd _) hsep' (takeNumber?_append hh _) (takeNumber?_append hmi _)
        (takeNumber?_append hs _) hfrac]
      simp [isDate, hdate, htime, isOffset_iff.mpr ho]

/-! ### The characters of a timestamp -/

/-- The characters of a timestamp that are neither digits nor signs. -/
def marks : List Char := ['-', ':', '.', 'T', 't', ' ', 'Z', 'z']

/-- Whether a character may stand in a timestamp. -/
def Admitted (signs : List Char) (c : Char) : Prop := c.isDigit = true ∨ c ∈ marks ∨ c ∈ signs

section Admitted

variable {signs : List Char}

theorem admitted_mark {c : Char} (h : c ∈ marks) : Admitted signs c := .inr (.inl h)

theorem Number.admitted {n v : Nat} {cs : List Char} (h : Number n v cs) :
    ∀ c ∈ cs, Admitted signs c := fun c hc => .inl (h.digit c hc)

theorem SecondsFraction.admitted {cs : List Char} (h : SecondsFraction cs) :
    ∀ c ∈ cs, Admitted signs c := by
  obtain ⟨fraction, h⟩ := h
  cases h with
  | absent => simp
  | digits h => exact List.forall_mem_cons.mpr ⟨admitted_mark (by decide), fun c hc => .inl (h.2 c hc)⟩

theorem OffsetSpelled.admitted {cs : List Char} (h : OffsetSpelled signs cs) :
    ∀ c ∈ cs, Admitted signs c := by
  cases h with
  | utc hz =>
    rcases hz with rfl | rfl
    all_goals exact List.forall_mem_singleton.mpr (admitted_mark (by decide))
  | shift hs hh hm =>
    simp only [List.forall_mem_append, List.forall_mem_cons]
    exact ⟨.inr (.inr hs), hh.admitted, admitted_mark (by decide), hm.admitted⟩

/-- **The characters of a timestamp** are digits, marks and signs. -/
theorem TimestampSpelled.admitted {cs : List Char} (h : TimestampSpelled signs cs) :
    ∀ c ∈ cs, Admitted signs c := by
  cases h with
  | mk hy hmo hd _ hsep hh hmi hs _ hf ho =>
    have hdash : Admitted signs '-' := admitted_mark (by decide)
    have hcolon : Admitted signs ':' := admitted_mark (by decide)
    simp only [List.forall_mem_append, List.forall_mem_cons]
    refine ⟨hy.admitted, hdash, hmo.admitted, hdash, hd.admitted, ?_, hh.admitted, hcolon, hmi.admitted,
      hcolon, hs.admitted, hf.admitted, ho.admitted⟩
    rcases hsep with rfl | rfl | rfl
    all_goals exact admitted_mark (by decide)

end Admitted

end LoadRig.Time
