import LoadRig.Proofs.Config.Plain
import LoadRig.Proofs.Toml.Bounds
/-!
# Configurations that are written down

A document that writes an assignment down is read as the defaults with the assigned values in their
places, if that configuration breaks no rule, and otherwise the first broken rule is reported. Neither the
order of groups and parameters nor anything else that stands in the document matters, be it comments,
blank lines or names that mean nothing. The document has to keep to the format and to define no name
twice, and it has to keep within the bounds of the reader: beyond them even a name that means nothing makes
it unreadable.

## Main results

* `LoadRig.Config.Assignment.overlay_of_written` — the configuration in a document.
* `LoadRig.Config.refused_beyond_bounds` — documents that are refused for what they say of a name that
  means nothing.
-/

namespace LoadRig.Config

open LoadRig.Text LoadRig.Toml

variable {a : Assignment} {ss : List Statement} {text : List Char} {n : Nat}

/-! ### Rules -/

theorem validate_of_forall {c : Config} (h : ∀ check ∈ c.checks, check.2 = true) :
    c.validate = .ok c := by
  have hnone : c.checks.find? (!·.2) = none := by
    rw [List.find?_eq_none]
    intro check hcheck
    rw [h check hcheck]
    decide
  rw [validate, broken?, hnone]
  rfl

theorem validate_of_first {c : Config} {before after : List (ConfigRule × Bool)} {rule : ConfigRule}
    (h : c.checks = before ++ (rule, false) :: after) (hbefore : ∀ check ∈ before, check.2 = true) :
    c.validate = .error (.invalid rule) := by
  have hfirst : c.checks.find? (!·.2) = some (rule, false) := by
    rw [List.find?_eq_some_iff_append]
    refine ⟨rfl, before, after, h, fun check hcheck => ?_⟩
    rw [hbefore check hcheck]
    rfl
  rw [validate, broken?, hfirst]
  rfl

/-! ### Documents -/

theorem ofToml_of_written (hrange : a.InRange) (htext : DocumentSpelled true [] ss text)
    (honce : NamesOnce [] ss) (hwritten : a.Written ss) : ofToml text = a.overlay.validate := by
  obtain ⟨es, hes, hfaithful⟩ := exists_parse? htext honce
  have hholds := Assignment.holds_of_written hwritten hfaithful honce
  rw [ofToml, hes, Option.bind_some, Assignment.ofTables?_of_holds hholds hrange]

/-- **The configuration in a document that writes an assignment down.** Texts with the same lines differ
in nothing but spelling, blank lines and comments. The plain document of an assignment is one of those
that write it down. -/
theorem Assignment.overlay_of_written (hrange : a.InRange) :
    (∀ ss text, DocumentSpelled true [] ss text → NamesOnce [] ss → a.Written ss →
      ((∀ check ∈ a.overlay.checks, check.2 = true) → ofToml text = .ok a.overlay) ∧
      (∀ before rule after, a.overlay.checks = before ++ (rule, false) :: after →
        (∀ check ∈ before, check.2 = true) → ofToml text = .error (.invalid rule)) ∧
      ∀ text', DocumentSpelled true [] ss text' → ofToml text' = ofToml text) ∧
    (a.IsPlain → DocumentSpelled true [] a.lines a.text ∧ NamesOnce [] a.lines ∧
      a.Written a.lines) := by
  constructor
  · intro ss text htext honce hwritten
    have hread : ofToml text = a.overlay.validate := ofToml_of_written hrange htext honce hwritten
    refine ⟨fun h => ?_, fun before rule after h hbefore => ?_, fun text' htext' => ?_⟩
    · rw [hread, validate_of_forall h]
    · rw [hread, validate_of_first h hbefore]
    · rw [hread, ofToml_of_written hrange htext' honce hwritten]
  · intro hplain
    exact ⟨Assignment.spelled_text hrange hplain, a.namesOnce_lines, a.written_lines⟩

/-! ### A document

Groups and parameters in no order, comments, blank lines and names that mean nothing. One of the
parameters breaks a rule. -/

/-- What is assigned. -/
def trial : Assignment where
  baseUrl := some "ws://127.0.0.1:9000/chat/"
  quantity
    | .maxAttempts => some 3
    | .ackTimeoutMs => some 0
    | _ => none

/-- The value of a name that means nothing. -/
def trialList : Item :=
  .array [.integer 1, .array [.string "x".toList],
    .inline (entriesOf [(["a".toList, "b".toList], .float)])]

def trialLines : List Statement :=
  [.header ["retry".toList], .pair ["retry".toList] ["max_attempts".toList] (.integer 3),
    .header ["extra".toList, "deep".toList],
    .pair ["extra".toList, "deep".toList] ["list".toList] trialList,
    .header ["target".toList], .pair ["target".toList] ["ack_timeout_ms".toList] (.integer 0),
    .pair ["target".toList] ["note".toList] .moment,
    .pair ["target".toList] ["base_url".toList] (.string "ws://127.0.0.1:9000/chat/".toList)]

def trialText : List Char :=
  "# a trial run\n\n[retry] # once more\nmax_attempts = 3\n".toList ++
    ("[extra.deep]\nlist = [1, [\"x\"], # and so on\n \x7b a.b = 0.5 \x7d]\n".toList ++
    ("[target]\nack_timeout_ms = 0\nnote = 1979-05-27\n".toList ++
    "base_url = \"ws://127.0.0.1:9000/chat/\"\n".toList))

theorem inRange_trial : trial.InRange := by
  intro q n hn
  cases q <;> cases hn <;> decide

theorem written_trial : trial.Written trialLines where
  assigned p i hi := by
    rcases p with _ | q
    · cases hi
      simp [trialLines, Parameter.line, Parameter.group, Parameter.name, Group.name]
    · cases q <;> cases hi <;>
        simp [trialLines, Parameter.line, Parameter.group, Parameter.name, Group.name]
  others s hs := by
    simp only [trialLines, List.mem_cons, List.not_mem_nil, or_false] at hs
    rcases hs with rfl | rfl | rfl | rfl | rfl | rfl | rfl | rfl
    · exact .inr (foreign_header .retry)
    · exact .inl ⟨.quantity .maxAttempts, _, rfl, rfl⟩
    · exact .inr (foreign_of_head fun g => by cases g <;> decide)
    · exact .inr (foreign_of_head fun g => by cases g <;> decide)
    · exact .inr (foreign_header .target)
    · exact .inl ⟨.quantity .ackTimeoutMs, _, rfl, rfl⟩
    · have hnote : ∀ p : Parameter, p.name.toList ≠ "note".toList := by
        rintro (_ | q)
        · decide
        · cases q <;> decide
      exact .inr (foreign_pair (g := .target) [] .moment fun p _ => hnote p)
    · exact .inl ⟨.baseUrl, _, rfl, rfl⟩

theorem spelled_trialList : Spelled true 0 (.value trialList)
    "[1, [\"x\"], # and so on\n \x7b a.b = 0.5 \x7d]".toList := by
  have hnone : Filler [] := .gap gap_nil
  have hdigit : DecimalSpelled ['1'] ['1'] := .digits (.one rfl) (by decide)
  have hone : Spelled true 1 (.value (.integer 1)) "1".toList :=
    .number (.decimal .absent hdigit (by decide) (by decide))
  have hx : Spelled true 1 (.value (.array [.string "x".toList])) "[\"x\"]".toList :=
    .array (by decide) (.lastItem hnone (spelled_plain (by decide)) hnone)
  have hfloat : Spelled true 2 (.value .float) "0.5".toList :=
    .number (.float .absent .zero (.digits (.one rfl)) .absent (.inl rfl)
      fun _ _ => by decide +kernel)
  have hkey : KeySpelled true ["a".toList, "b".toList] " a.b ".toList :=
    ⟨.cons gap_space (.bare (by decide) (List.all_eq_true.mp (by decide))) gap_nil
      (.last gap_nil (.bare (by decide) (List.all_eq_true.mp (by decide))) gap_space), by decide⟩
  have hinline : Spelled true 1 (.value (.inline (entriesOf [(["a".toList, "b".toList], .float)])))
      "\x7b a.b = 0.5 \x7d".toList :=
    .inline (by decide) (.lastPair hkey gap_space hfloat gap_space) (by decide)
  have hremark : ∀ c ∈ " and so on".toList, isText c = true :=
    List.all_eq_true.mp (by decide)
  exact .array (by decide) (.item hnone hone hnone (.item (.gap gap_space) hx hnone
    (.lastItem (.line (.comment gap_space hremark) .feed (.gap gap_space)) hinline hnone)))

theorem spelled_trial : DocumentSpelled true [] trialLines trialText := by
  have hend : Trail [] := .blank gap_nil
  have hrun : ∀ c ∈ " a trial run".toList, isText c = true :=
    List.all_eq_true.mp (by decide)
  have honce : ∀ c ∈ " once more".toList, isText c = true :=
    List.all_eq_true.mp (by decide)
  have hextra : KeySpelled true ["extra".toList, "deep".toList] "extra.deep".toList :=
    ⟨.cons gap_nil (.bare (by decide) (List.all_eq_true.mp (by decide))) gap_nil
      (.last gap_nil (.bare (by decide) (List.all_eq_true.mp (by decide))) gap_nil), by decide⟩
  have hdigit : DecimalSpelled ['3'] ['3'] := .digits (.one rfl) (by decide)
  have hthree : Spelled true 0 (.value (.integer 3)) "3".toList :=
    .number (.decimal .absent hdigit (by decide) (by decide))
  have hzero : Spelled true 0 (.value (.integer 0)) "0".toList :=
    .number (.decimal .absent .zero (by decide) (by decide))
  have hyear : FieldSpelled 4 0 9999 1979 "1979".toList :=
    ⟨by decide, List.all_eq_true.mp (by decide), by decide, by decide, by decide⟩
  have hmonth : FieldSpelled 2 1 12 5 "05".toList :=
    ⟨by decide, List.all_eq_true.mp (by decide), by decide, by decide, by decide⟩
  have hday : FieldSpelled 2 1 (Time.daysIn 1979 5) 27 "27".toList :=
    ⟨by decide, List.all_eq_true.mp (by decide), by decide, by decide, by decide⟩
  have hdate : Spelled true 0 (.value .moment) "1979-05-27".toList :=
    .moment (.date (.mk hyear hmonth hday))
  have hurl : Spelled true 0 (.value (.string "ws://127.0.0.1:9000/chat/".toList))
      "\"ws://127.0.0.1:9000/chat/\"".toList := spelled_plain (by decide)
  have htarget : DocumentSpelled true ["extra".toList, "deep".toList] _ _ :=
    .headerLine (.plain (p := "target".toList) (by decide) (by decide)) hend
    (.pairLine (p := "ack_timeout_ms".toList) (by decide) (by decide) hzero hend
    (.pairLine (p := "note".toList) (by decide) (by decide) hdate hend
    (.pairLine (p := "base_url".toList) (by decide) (by decide) hurl hend .nil)))
  have hdeep : DocumentSpelled true ["retry".toList] _ _ :=
    .headerLine hextra hend
    (.pairLine (p := "list".toList) (by decide) (by decide) spelled_trialList hend htarget)
  have hretry : DocumentSpelled true [] trialLines _ :=
    .remarkLine (.comment gap_nil hrun) (.remarkLine hend
    (.headerLine (.plain (p := "retry".toList) (by decide) (by decide)) (.comment gap_space honce)
    (.pairLine (p := "max_attempts".toList) (by decide) (by decide) hthree hend hdeep)))
  convert hretry using 1
  decide +kernel

theorem ofToml_trial :
    trial.InRange ∧ DocumentSpelled true [] trialLines trialText ∧ NamesOnce [] trialLines ∧
      trial.Written trialLines ∧ ofToml trialText = .error (.invalid .ackTimeout) := by
  have honce : NamesOnce [] trialLines := by decide
  have hread := (Assignment.overlay_of_written inRange_trial).1 trialLines trialText spelled_trial
    honce written_trial
  exact ⟨inRange_trial, spelled_trial, honce, written_trial,
    hread.2.1 [(.baseUrl, true), (.connectTimeout, true)] .ackTimeout _ rfl (by decide)⟩

/-! ### Beyond the bounds -/

/-- A text keeps to the format, defines no name twice and assigns nothing, so that it should be read as
the defaults, which break no rule; but it is refused. -/
def RefusedInVain (text : List Char) : Prop :=
  (∃ ss, DocumentSpelled false [] ss text ∧ NamesOnce [] ss ∧ ({} : Assignment).Written ss) ∧
    (∀ check ∈ ({} : Assignment).overlay.checks, check.2 = true) ∧ ofToml text = .error .malformed

/-- A text with nothing in it but a name that means nothing, and a value that is refused. -/
theorem refusedInVain_of_pair {path : Path} {v : Item} {k g t : List Char}
    (hk : KeySpelled false path k) (hg : Gap g) (h : Spelled false 0 (.value v) t)
    (hforeign : ∀ g : Group, path.head? ≠ some g.name.toList)
    (hrefused : parse? (k ++ '=' :: (g ++ t)) = none) :
    RefusedInVain (k ++ '=' :: (g ++ t)) := by
  have hne : path ≠ [] := by
    obtain ⟨h, -⟩ := hk
    cases h <;> exact List.cons_ne_nil _ _
  refine ⟨⟨[.pair [] path v], ?_, ?_, ?_⟩, by decide, ?_⟩
  · have hline : DocumentSpelled false [] _ (k ++ '=' :: (g ++ t) ++ []) :=
      .last (.pair hk hg h) (.blank gap_nil)
    rwa [List.append_nil] at hline
  · exact ⟨⟨hne, fun k => not_defined_nil, fun p r k _ _ _ hd => absurd hd not_defined_nil⟩, trivial⟩
  · constructor
    · rintro (_ | q) i hi <;> cases hi
    · intro s hs
      obtain rfl := List.mem_singleton.mp hs
      exact .inr (foreign_of_head hforeign)
  · rw [ofToml, hrefused]
    rfl

/-- The same for a name of one letter. -/
theorem refusedInVain_of_value {v : Item} {t : List Char} (h : Spelled false 0 (.value v) t)
    (hrefused : ∀ fuel, readValue? fuel 0 t = none) : RefusedInVain ("x = ".toList ++ t) := by
  have hkey : ∀ bounded, KeySpelled bounded [['x']] "x ".toList := fun _ =>
    .bare (by decide) (by decide) gap_space
  have hskip : skipGap ([' '] ++ t) = t := by
    obtain ⟨c, t', rfl, hc⟩ := h.exists_cons
    exact skipGap_append gap_space (noneAhead_cons (beginsValue_spec hc).1)
  have hnone : parse? ("x ".toList ++ '=' :: ([' '] ++ t)) = none :=
    parse?_eq_none_of_value (hkey true) fun fuel => by rw [hskip, hrefused]
  exact refusedInVain_of_pair (hkey false) gap_space h (fun g => by cases g <;> decide) hnone

/-- Too many brackets. -/
theorem refusedInVain_nested (hdeep : tooDeep ≤ n + 1) :
    RefusedInVain ("x = ".toList ++ brackets (n + 1)) :=
  refusedInVain_of_value (spelled_nested n 0) fun _ =>
    readValue?_nested (by omega) (List.replicate (n + 1) ']')

/-- Too many parts of a key. -/
theorem refusedInVain_long (hlong : tooDeep ≤ n + 1) :
    RefusedInVain ((List.replicate n "a.".toList).flatten ++ "a = 1".toList) := by
  have hpart : PartSpelled ['a'] ['a'] := .bare (by decide) (List.all_eq_true.mp (by decide))
  have hkey := partsOfKey_replicate hpart gap_space n
  have hone : Spelled false 0 (.value (.integer 1)) ['1'] := by
    have hdigits : digits 1 = ['1'] := digits_of_lt (by decide)
    rw [← hdigits]
    exact spelled_digits (by decide)
  have htext : (List.replicate n "a.".toList).flatten ++ "a = 1".toList =
      (List.replicate n (['a'] ++ ['.'])).flatten ++ (['a'] ++ [' ']) ++ '=' :: ([' '] ++ ['1']) := by
    rw [List.append_assoc]
    rfl
  rw [htext]
  refine refusedInVain_of_pair ⟨hkey, fun h => absurd h Bool.false_ne_true⟩ gap_space hone (fun g => ?_)
    (parse?_eq_none_of_key hkey (by rwa [List.length_replicate]) _)
  rw [List.replicate_succ, List.head?_cons]
  cases g <;> decide

/-- A float that is too large. -/
theorem refusedInVain_large : RefusedInVain ("x = ".toList ++ "1e400".toList) := by
  have hone : DecimalSpelled ['1'] ['1'] := .digits (.one rfl) (by decide)
  have hdigits : DigitsSpelled Char.isDigit "400".toList "400".toList :=
    digitsSpelled_of_forall (by decide) (List.all_eq_true.mp (by decide))
  have hexponent : ExponentSpelled (some 400) ('e' :: ([] ++ "400".toList)) :=
    .digits (.inl rfl) .absent hdigits
  have hfloat : Spelled false 0 (.value .float) "1e400".toList :=
    .number (.float .absent hone .absent hexponent (.inr rfl) fun h => absurd h Bool.false_ne_true)
  have hlarge : Decimal.Overflows 1 400 := by decide +kernel
  have hrefused := readNumber?_large .absent hone .absent hexponent (.inr rfl) hlarge closes_nil
  refine refusedInVain_of_value hfloat fun fuel => ?_
  cases fuel with
  | zero => rfl
  | succ fuel => exact (readValue?_number rfl _).trans hrefused

/-- **Texts beyond the bounds.** Each keeps to the format, assigns nothing and is refused: the name that it
defines means nothing, but its value is nested too deep, it has too many parts, or its value is too
large. -/
theorem refused_beyond_bounds :
    RefusedInVain ("x = ".toList ++ brackets 200) ∧
      RefusedInVain ((List.replicate 199 "a.".toList).flatten ++ "a = 1".toList) ∧
      RefusedInVain ("x = ".toList ++ "1e400".toList) :=
  ⟨refusedInVain_nested (by decide : tooDeep ≤ 199 + 1),
    refusedInVain_long (by decide : tooDeep ≤ 199 + 1), refusedInVain_large⟩

end LoadRig.Config
