import LoadRig.Csv
/-!
# Reading a table

A table of plain fields is read by cutting it at its line feeds and each line at its commas, with no
regard to quotes. That is so because a record of plain fields is written as the fields with commas
between them, and nothing in it looks like a comma or the end of a line. A record of one field is left
out here, as it might have nothing to see in it.

A way to read is given by a function from fields to items. It reads every row if it finds the item in
the fields of the row and does not take the names for a row.

## Main definitions

* `LoadRig.Csv.Plain` — a field that is written as it is; `LoadRig.Csv.line` — plain fields as a line.
* `LoadRig.Csv.Lawful` — rows of plain fields under the same names, from which items are read.
* `LoadRig.Csv.Holds` — a text is a table from which some items are read.

## Main results

* `LoadRig.Csv.splitOn_lines`, `LoadRig.Csv.splitOn_line` — lines and fields are cut apart again.
* `LoadRig.Csv.Writer.foldlM_serialize` — what a writer makes of rows.
* `LoadRig.Csv.Lawful.holds` — rows of a lawful kind make a table.
-/

namespace LoadRig.Csv

variable {α β : Type} {cs : List Char} {fields header : List (List Char)} {row : α → Row}
  {read? : List (List Char) → Option β} {item : α → β}

/-! ### Lines of plain fields -/

/-- A field without special characters. -/
def Plain (cs : List Char) : Prop := ∀ c ∈ cs, isSpecial c = false

theorem plain_iff_any : Plain cs ↔ cs.any isSpecial = false := by
  simp only [Plain, List.any_eq_false, Bool.not_eq_true]

theorem forall_plain_iff_any :
    (∀ f ∈ fields, Plain f) ↔ (fields.any fun f => f.any isSpecial) = false := by
  rw [List.any_eq_false]
  simp only [plain_iff_any, Bool.not_eq_true]

/-- Fields with commas between them. -/
def line (fields : List (List Char)) : List Char := List.intercalate [','] fields

theorem line_cons_cons (f g : List Char) (fs : List (List Char)) :
    line (f :: g :: fs) = f ++ ',' :: line (g :: fs) := by
  rw [line, List.intercalate_cons_cons, List.append_assoc, List.singleton_append]
  rfl

theorem mem_line {c : Char} (h : c ∈ line fields) : c = ',' ∨ ∃ f ∈ fields, c ∈ f := by
  induction fields with
  | nil => cases h
  | cons f fs ih =>
    cases fs with
    | nil => exact .inr ⟨f, List.mem_cons_self, by simpa [line] using h⟩
    | cons g fs =>
      rw [line_cons_cons, List.mem_append, List.mem_cons] at h
      rcases h with h | h | h
      · exact .inr ⟨f, List.mem_cons_self, h⟩
      · exact .inl h
      · rcases ih h with hcomma | ⟨f', hf', hc⟩
        · exact .inl hcomma
        · exact .inr ⟨f', List.mem_cons_of_mem _ hf', hc⟩

/-- No line has the end of a line in it. -/
theorem newline_notMem_line (h : ∀ f ∈ fields, Plain f) : '\n' ∉ line fields := by
  intro hmem
  rcases mem_line hmem with hcomma | ⟨f, hf, hc⟩
  · exact absurd hcomma (by decide)
  · exact absurd (h f hf '\n' hc) (by decide)

theorem field_of_plain (h : Plain cs) : field cs = cs := by
  rw [field, plain_iff_any.mp h]
  rfl

/-- A record of plain fields is its line. -/
theorem record_of_plain (h : ∀ f ∈ fields, Plain f) (hlen : 1 < fields.length) :
    record fields = line fields ++ ['\n'] := by
  have hbare : fields.map field = fields :=
    (List.map_congr_left fun f hf => field_of_plain (h f hf)).trans (List.map_id fields)
  have hseen : ¬(line fields).isEmpty = true := by
    match fields, hlen with
    | f :: g :: fs, _ => simp [line_cons_cons]
  show (if (List.intercalate [','] (fields.map field)).isEmpty then _ else _) ++ _ = _
  rw [hbare]
  exact congrArg (· ++ ['\n']) (if_neg hseen)

/-- **A line is cut into its fields again.** -/
theorem splitOn_line (h : ∀ f ∈ fields, Plain f) (hlen : 1 < fields.length) :
    List.splitOn ',' (line fields) = fields := by
  refine List.splitOn_intercalate ',' ?_ ?_
  · intro f hf hcomma
    exact absurd (h f hf ',' hcomma) (by decide)
  · rintro rfl
    simp at hlen

/-- **Lines are cut apart again**, and nothing stands behind the end of the last one. -/
theorem splitOn_lines {lines : List (List Char)} (h : ∀ l ∈ lines, '\n' ∉ l) :
    List.splitOn '\n' (lines.flatMap (· ++ ['\n'])) = lines ++ [[]] := by
  induction lines with
  | nil => rfl
  | cons l lines ih =>
    rw [List.flatMap_cons, List.append_assoc, List.singleton_append,
      List.splitOn_append_cons_self_of_not_mem (h l List.mem_cons_self),
      ih fun l' hl' => h l' (List.mem_cons_of_mem _ hl'), List.cons_append]

/-! ### The writer -/

namespace Writer

/-- A writer that has written the names of so many fields, and some text in all. -/
def midway (text : List Char) (width : Nat) : Writer :=
  { text := String.ofList text, width := some width, headed := true }

/-- The names go before the first row. -/
theorem serialize_first (r : Row) :
    ({} : Writer).serialize r =
      .ok (midway (record (r.map (·.1)) ++ record (r.map (·.2))) r.length) := by
  simp [serialize, write, midway, Except.map, bind, Except.bind]

theorem serialize_midway (text : List Char) (r : Row) :
    (midway text r.length).serialize r =
      .ok (midway (text ++ record (r.map (·.2))) r.length) := by
  simp [serialize, write, midway, bind, Except.bind]

/-- **Rows of the same width are written one behind the other.** -/
theorem foldlM_serialize {n : Nat} (h : ∀ a, (row a).length = n) (items : List α)
    (text : List Char) :
    items.foldlM (fun w a => w.serialize (row a)) (midway text n) =
      .ok (midway (text ++ items.flatMap fun a => record ((row a).map (·.2))) n) := by
  induction items generalizing text with
  | nil => rw [List.flatMap_nil, List.append_nil]; rfl
  | cons a items ih =>
    have hstep := serialize_midway text (row a)
    rw [h a] at hstep
    rw [List.foldlM_cons, hstep, List.flatMap_cons, ← List.append_assoc]
    exact ih _

end Writer

/-! ### Tables -/

/-- Rows of plain fields under the same names, and a function that reads an item off the fields of its
row and does not take the names for a row. -/
structure Lawful (header : List (List Char)) (row : α → Row)
    (read? : List (List Char) → Option β) (item : α → β) : Prop where
  names : ∀ a, (row a).map (·.1) = header
  wide : 1 < header.length
  plain_header : ∀ f ∈ header, Plain f
  plain : ∀ a, ∀ f ∈ (row a).map (·.2), Plain f
  read : ∀ a, read? ((row a).map (·.2)) = some (item a)
  read_header : read? header = none

/-- A text is a table with a header: the header is its first line and no other, and the fields of the
other lines are read as some items, one line for each and in their order. -/
def Holds (header : List Char) (read? : List (List Char) → Option β) (items : List β)
    (text : List Char) : Prop :=
  ∃ lines, List.splitOn '\n' text = header :: lines ++ [[]] ∧ header ∉ lines ∧
    lines.map (fun l => read? (List.splitOn ',' l)) = items.map some

namespace Lawful

theorem length_row (h : Lawful header row read? item) (a : α) : (row a).length = header.length := by
  rw [← h.names a, List.length_map]

theorem wide_row (h : Lawful header row read? item) (a : α) :
    1 < ((row a).map (·.2)).length := by
  rw [List.length_map, h.length_row]
  exact h.wide

/-- The line of a row is read as its item. -/
theorem read_line (h : Lawful header row read? item) (a : α) :
    read? (List.splitOn ',' (line ((row a).map (·.2)))) = some (item a) := by
  rw [splitOn_line (h.plain a) (h.wide_row a)]
  exact h.read a

/-- The header is not the line of a row. -/
theorem header_ne_line (h : Lawful header row read? item) (a : α) :
    line header ≠ line ((row a).map (·.2)) := by
  intro heq
  have hread := h.read_line a
  rw [← heq, splitOn_line h.plain_header h.wide, h.read_header] at hread
  cases hread

/-- **The names and the rows make a table.** -/
theorem holds (h : Lawful header row read? item) (items : List α) :
    Holds (line header) read? (items.map item)
      (record header ++ items.flatMap fun a => record ((row a).map (·.2))) := by
  have htext : record header ++ (items.flatMap fun a => record ((row a).map (·.2))) =
      (line header :: items.map fun a => line ((row a).map (·.2))).flatMap (· ++ ['\n']) := by
    have hrow : (fun a => record ((row a).map (·.2))) =
        fun a => line ((row a).map (·.2)) ++ ['\n'] := by
      funext a
      exact record_of_plain (h.plain a) (h.wide_row a)
    rw [hrow, record_of_plain h.plain_header h.wide, List.flatMap_cons, List.flatMap_map]
  refine ⟨items.map fun a => line ((row a).map (·.2)), ?_, ?_, ?_⟩
  · rw [htext, splitOn_lines]
    intro l hl
    rcases List.mem_cons.mp hl with rfl | hl
    · exact newline_notMem_line h.plain_header
    · obtain ⟨a, -, rfl⟩ := List.mem_map.mp hl
      exact newline_notMem_line (h.plain a)
  · intro hmem
    obtain ⟨a, -, ha⟩ := List.mem_map.mp hmem
    exact h.header_ne_line a ha.symm
  · rw [List.map_map, List.map_map]
    exact List.map_congr_left fun a _ => h.read_line a

end Lawful

end LoadRig.Csv
