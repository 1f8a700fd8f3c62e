import LoadRig.Text.Digits
/-!
# Comma-separated values

A writer puts one record behind the other. Commas stand between the fields of a record and a line feed
stands behind it. A field with a comma, a quote or the end of a line in it is put between quotes, and
the quotes in it are doubled. A record of which nothing else would be seen is a pair of quotes. All
records of a table have as many fields as the first one.

A row is a record whose fields have names. The names are written before the first row, as a record of
their own.

## Main definitions

* `LoadRig.Csv.field`, `LoadRig.Csv.record` — how fields and records are written.
* `LoadRig.Csv.Uneven` — what is wrong with a record of another length.
* `LoadRig.Csv.Row` — fields with their names.
* `LoadRig.Csv.Writer` — what has been written; `write` adds a record, `serialize` a row.
-/

namespace LoadRig.Csv

/-- Characters that cannot stand in a field without quotes around it. -/
def isSpecial (c : Char) : Bool := c == ',' || c == '"' || c == '\r' || c == '\n'

/-- A field in a record. -/
def field (cs : List Char) : List Char :=
  if cs.any isSpecial then '"' :: cs.flatMap (fun c => if c == '"' then [c, c] else [c]) ++ ['"']
  else cs

/-- A record and the end of its line. -/
def record (fields : List (List Char)) : List Char :=
  let text := List.intercalate [','] (fields.map field)
  (if text.isEmpty then ['"', '"'] else text) ++ ['\n']

/-- A record has another number of fields than the first one. -/
structure Uneven where
  expected : Nat
  found : Nat
deriving DecidableEq, Repr

/-- The text of this fault. -/
def Uneven.message (u : Uneven) : String :=
  "CSV error: found record with " ++ Text.digitString u.found ++
    " fields, but the previous record has " ++ Text.digitString u.expected ++ " fields"

/-- Fields, each behind its name. -/
abbrev Row := List (List Char × List Char)

/-- A table in the making. -/
structure Writer where
  /-- What has been written. -/
  text : String := ""
  /-- The number of fields of the first record. -/
  width : Option Nat := none
  /-- Whether the names of the fields are already there. -/
  headed : Bool := false

namespace Writer

/-- Adds a record. -/
def write (w : Writer) (fields : List (List Char)) : Except Uneven Writer :=
  let width := w.width.getD fields.length
  if fields.length = width then
    .ok { w with text := w.text ++ String.ofList (record fields), width := some width }
  else .error { expected := width, found := fields.length }

/-- Adds a row, and the names of its fields if they are not there yet. -/
def serialize (w : Writer) (row : Row) : Except Uneven Writer := do
  let w ← if w.headed then .ok w else (w.write (row.map (·.1))).map ({ · with headed := true })
  w.write (row.map (·.2))

end Writer

end LoadRig.Csv
