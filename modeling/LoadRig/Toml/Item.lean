/-!
# TOML documents

A document is a tree of tables. Tables come into being in three ways, and it matters which: by a
header, as a table on the way to another header, or on the way of a dotted key. A table that has had
its header can get no second one, dotted keys may only add to tables that dotted keys have made, and
what was written as a value, an inline table included, is closed.

Values are kept as far as a reader of settings needs them: a number with a fraction and a date or
time are known to be there, and no more.

## Main definitions

* `LoadRig.Toml.Item` — a value or a table.
* `LoadRig.Toml.addKey?` — adds a value under a dotted key.
* `LoadRig.Toml.openTable?`, `LoadRig.Toml.openElement?` — what the two sorts of header do.
* `LoadRig.Toml.within?` — changes the table that a header has opened.
-/

namespace LoadRig.Toml

/-- How a table came into being. -/
inductive Origin where
  /-- By a header of its own. -/
  | header
  /-- On the way to another header. -/
  | implied
  /-- On the way of a dotted key. -/
  | dotted
deriving DecidableEq, Repr

/-- A value or a table. -/
inductive Item where
  | string (s : List Char)
  | integer (n : Int)
  | float
  | boolean (b : Bool)
  | moment
  | array (items : List Item)
  | inline (entries : List (List Char × Item))
  | table (origin : Origin) (entries : List (List Char × Item))
  /-- Tables under one double-bracketed header, the current one first. -/
  | tables (elements : List (List (List Char × Item)))
deriving Repr

/-- The entries of a table. -/
abbrev Entries := List (List Char × Item)

/-- The item under a name. -/
def Entries.find? (name : List Char) (es : Entries) : Option Item :=
  (List.find? (·.1 == name) es).map (·.2)

/-- Puts an item under a name, in place of the one that is there or behind all others. -/
def Entries.put (name : List Char) (item : Item) : Entries → Entries
  | [] => [(name, item)]
  | e :: es => if e.1 == name then (name, item) :: es else e :: Entries.put name item es

/-- Adds a value under a key with the given parts before its last. `origin` is that of the table
the last part belongs to; below the first level it must have been made by a dotted key. -/
def addKeyIn? (key : List Char) (value : Item) :
    (nested : Bool) → Origin → List (List Char) → Entries → Option Entries
  | nested, origin, [], es =>
    if nested && origin != .dotted then none
    else if (es.find? key).isSome then none
    else some (es.put key value)
  | _, _, part :: parts, es =>
    match es.find? part with
    | none => (addKeyIn? key value true .dotted parts []).map fun inner =>
        es.put part (.table .dotted inner)
    | some (.table .header _) => none
    | some (.table origin inner) =>
      (addKeyIn? key value true origin parts inner).map fun inner =>
        es.put part (.table origin inner)
    | some (.tables (inner :: others)) =>
      (addKeyIn? key value true .header parts inner).map fun inner =>
        es.put part (.tables (inner :: others))
    | some _ => none

/-- Adds a value under a dotted key to a table with a header, or to an inline table. -/
def addKey? (path : List (List Char)) (value : Item) (es : Entries) : Option Entries :=
  match path.getLast? with
  | none => none
  | some key => addKeyIn? key value false .header path.dropLast es

/-- Goes down the parts of a header, making the tables that are not there, and changes the table
at its end. -/
def descend? (change : Entries → Option Entries) : List (List Char) → Entries → Option Entries
  | [], es => change es
  | part :: parts, es =>
    match es.find? part with
    | none => (descend? change parts []).map fun inner => es.put part (.table .implied inner)
    | some (.table origin inner) =>
      (descend? change parts inner).map fun inner => es.put part (.table origin inner)
    | some (.tables (inner :: others)) =>
      (descend? change parts inner).map fun inner => es.put part (.tables (inner :: others))
    | some _ => none

/-- A header in single brackets: the table must be new, or so far only implied. -/
def openTable? (path : List (List Char)) (es : Entries) : Option Entries :=
  match path.getLast? with
  | none => none
  | some name =>
    descend? (fun es =>
      match es.find? name with
      | none => some (es.put name (.table .header []))
      | some (.table .implied inner) => some (es.put name (.table .header inner))
      | some _ => none) path.dropLast es

/-- A header in double brackets: one more element in a list of tables. -/
def openElement? (path : List (List Char)) (es : Entries) : Option Entries :=
  match path.getLast? with
  | none => none
  | some name =>
    descend? (fun es =>
      match es.find? name with
      | none => some (es.put name (.tables [[]]))
      | some (.tables elements) => some (es.put name (.tables ([] :: elements)))
      | some _ => none) path.dropLast es

/-- Changes the table that the header with the given parts has opened. -/
def within? (path : List (List Char)) (change : Entries → Option Entries) (es : Entries) :
    Option Entries :=
  descend? change path es

end LoadRig.Toml
