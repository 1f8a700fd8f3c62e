/-!
# Command lines

A program is called with settings, each of which has a long name and takes one value, which stands
behind an equals sign or is the next word. A word that begins with a hyphen is no value, the lone
hyphen apart. There is always a setting that asks for help, and it takes no value.

Words are read from left to right. A value in a word of its own is looked at only when the next
setting is read, so an unknown word behind it is found first; a value behind an equals sign is
looked at once.

## Main definitions

* `LoadRig.UsageError` — what can be wrong with a command line.
* `LoadRig.CommandLine.Setting` — a setting: its name and a check of its values.
* `LoadRig.CommandLine.read` — the values that a command line gives to settings.
* `LoadRig.CommandLine.Program` — a program with its settings; `help` and `usage` are its texts.
-/

namespace LoadRig

/-- What is wrong with a command line. -/
inductive UsageError where
  /-- A setting has no value, or an empty one where there must be something. -/
  | missingValue
  | badValue
  | unknownWord
  | repeated
  /-- A value where none is taken. -/
  | unwantedValue
  /-- Nothing is wrong, but help is asked for. -/
  | help
deriving DecidableEq, Repr

/-- The text of a usage error. -/
def UsageError.message : UsageError → String
  | missingValue => "a value is missing"
  | badValue => "a value cannot be read"
  | unknownWord => "there is a word that names no setting"
  | repeated => "a setting is given twice"
  | unwantedValue => "there is a value where none is taken"
  | help => "help is asked for"

namespace CommandLine

/-- A setting of a program, with what is wrong with a value, what is told of it, and the value that
it has when none is given. -/
structure Setting where
  name : String
  fault? : String → Option UsageError
  about : String
  fallback : Option String := none

/-- The values of settings so far, and the setting that has been named last, with its value if that
has come but has not been looked at. -/
structure State where
  given : List (String × String) := []
  last : Option (Setting × Option String) := none

/-- Gives a value to a setting. A setting takes one value, and only once. -/
def give (given : List (String × String)) (s : Setting) (value : Option String) :
    Except UsageError (List (String × String)) :=
  match value with
  | none => .error .missingValue
  | some v =>
    if given.any (·.1 == s.name) then .error .repeated
    else
      match s.fault? v with
      | some e => .error e
      | none => .ok ((s.name, v) :: given)

/-- Looks at the value of the setting that was named last. -/
def State.settle (st : State) : Except UsageError (List (String × String)) :=
  match st.last with
  | none => .ok st.given
  | some (s, value) => give st.given s value

/-- What a word is. -/
inductive Word where
  | plain (s : String)
  /-- The word behind which there are no settings any more. -/
  | stop
  /-- A long name, perhaps with a value. -/
  | long (name : String) (value : Option String)
  /-- Letters behind one hyphen. -/
  | short (letters : List Char)
deriving DecidableEq, Repr

/-- Tells what a word is. -/
def Word.ofString (s : String) : Word :=
  match s.toList with
  | ['-', '-'] => .stop
  | '-' :: '-' :: cs =>
    let name := String.ofList (cs.takeWhile (· != '='))
    match cs.dropWhile (· != '=') with
    | [] => .long name none
    | _ :: value => .long name (some (String.ofList value))
  | '-' :: c :: cs => .short (c :: cs)
  | _ => .plain s

/-- Reads one word; `more` tells whether others follow. -/
def step (settings : List Setting) (more : Bool) (st : State) (w : Word) :
    Except UsageError State := do
  match w with
  | .stop => if more then throw .unknownWord else return st
  | .plain s =>
    match st.last with
    | some (o, none) => return { st with last := some (o, some s) }
    | _ => throw .unknownWord
  | .short letters =>
    if letters.head? = some 'h' then
      let _ ← st.settle
      throw .help
    else throw .unknownWord
  | .long name value =>
    if name == "help" then
      if value.isSome then throw .unwantedValue
      let _ ← st.settle
      throw .help
    match settings.find? (·.name == name) with
    | none => throw .unknownWord
    | some s =>
      let given ← st.settle
      match value with
      | none => return { given, last := some (s, none) }
      | some _ => return { given := ← give given s value }

/-- Reads words. -/
def readWords (settings : List Setting) : State → List String → Except UsageError State
  | st, [] => .ok st
  | st, w :: ws => do
    let st ← step settings (!ws.isEmpty) st (.ofString w)
    readWords settings st ws

/-- The values that the words of a command line give to settings. -/
def read (settings : List Setting) (words : List String) :
    Except UsageError (List (String × String)) := do
  (← readWords settings {} words).settle

/-! ### Sorts of values -/

/-- A setting whose value is any text. -/
def text (name about : String) : Setting := { name, about, fault? := fun _ => none }

/-- A setting whose value is a path, which is not empty. -/
def path (name about : String) : Setting :=
  { name, about, fault? := fun v => if v.isEmpty then some .missingValue else none }

/-- A setting whose value must be readable. -/
def reading {α : Type} (read? : String → Option α) (name about : String) : Setting :=
  { name, about, fault? := fun v => if (read? v).isSome then none else some .badValue }

/-- A setting that has a value when none is given. -/
def Setting.withFallback (s : Setting) (value : String) : Setting := { s with fallback := some value }

/-- The value of a setting. -/
def value? (given : List (String × String)) (name : String) : Option String :=
  (given.find? (·.1 == name)).map (·.2)

/-! ### Help -/

/-- A program with its settings. -/
structure Program where
  name : String
  about : String
  settings : List Setting

/-- How a setting is written: its name, and its name in capitals for the value. -/
def Setting.form (s : Setting) : String :=
  let value := s.name.map fun c => if c == '-' then '_' else c.toUpper
  "--" ++ s.name ++ " <" ++ value ++ ">"

/-- What is told of a setting, the value that it has when none is given at the end. -/
def Setting.story (s : Setting) : String :=
  match s.fallback with
  | none => s.about
  | some v => s.about ++ " [default: " ++ v ++ "]"

/-- The width of a line of help. -/
def lineWidth : Nat := 100

namespace Program

/-- All settings as they are written, with what is told of them. -/
def entries (p : Program) : List (String × String) :=
  p.settings.map (fun s => ("      " ++ s.form, s.story)) ++ [("  -h, --help", "Print help")]

/-- The column behind the longest of the settings. -/
def column (p : Program) : Nat := ((p.entries.map (·.1.length)).max?.getD 0) + 2

/-- Whether stories stand on lines of their own: when settings are wide and some story does not fit
beside them. The blank before a default value is not counted. -/
def isTall (p : Program) : Bool :=
  let overhang (s : Setting) : Nat := s.story.length - (if s.fallback.isSome then 1 else 0)
  2 * lineWidth < 5 * p.column && p.settings.any fun s => lineWidth - p.column < overhang s

/-- One line of usage. -/
def usageLine (p : Program) : String := "Usage: " ++ p.name ++ " [OPTIONS]"

/-- The text of help. -/
def help (p : Program) : String :=
  let lines := p.entries.map fun (form, story) =>
    if p.isTall then form ++ "\n          " ++ story
    else form.pushn ' ' (p.column - form.length) ++ story
  p.about ++ "\n\n" ++ p.usageLine ++ "\n\nOptions:\n" ++ "\n".intercalate lines ++ "\n"

/-- What is told of a usage error. -/
def usage (p : Program) (e : UsageError) : String :=
  "error: " ++ e.message ++ "\n\n" ++ p.usageLine ++
    "\n\nFor more information, try '--help'.\n"

end Program

end CommandLine

end LoadRig
