import LoadRig.CommandLine
/-!
# How a program ends

A program ends with a number, with what it told, and with what it complained of. Zero is a good end,
one is a failure, and two is a command line that makes no sense. A failure is told from the general
to the particular: first what was tried, then the causes, which are numbered if there are several.

## Main definitions

* `LoadRig.Ending` — how a program ended.
* `LoadRig.Ending.good`, `LoadRig.Ending.failed`, `LoadRig.Ending.misused`
* `LoadRig.chainText` — the text of a failure.
-/

namespace LoadRig

/-- How a program ended. -/
structure Ending where
  code : Nat
  output : String
  complaint : String
deriving DecidableEq, Repr

/-- Puts a margin before every line but the first. -/
def hanging (margin : String) (text : String) : String :=
  ("\n" ++ margin).intercalate (text.splitToList (· == '\n'))

/-- The line of one of several causes. -/
def numberedCause (i : Nat) (cause : String) : String :=
  let number := toString i
  "".pushn ' ' (5 - number.length) ++ number ++ ": " ++ hanging "       " cause

/-- The text of a failure. -/
def chainText : List String → String
  | [] => "Error: \n"
  | [tried] => "Error: " ++ tried ++ "\n"
  | [tried, cause] => "Error: " ++ tried ++ "\n\nCaused by:\n    " ++ hanging "    " cause ++ "\n"
  | tried :: causes =>
    "Error: " ++ tried ++ "\n\nCaused by:\n" ++
      "\n".intercalate (causes.mapIdx numberedCause) ++ "\n"

/-- Lines with their ends. -/
def linesText (lines : List String) : String := String.join (lines.map (· ++ "\n"))

namespace Ending

/-- A good end after some lines. -/
def good (lines : List String) : Ending :=
  { code := 0, output := linesText lines, complaint := "" }

/-- A failure after some lines. -/
def failed (lines : List String) (chain : List String) : Ending :=
  { code := 1, output := linesText lines, complaint := chainText chain }

/-- An end before anything was done. Who asks for help gets it. -/
def misused (p : CommandLine.Program) (e : UsageError) : Ending :=
  if e = .help then { code := 0, output := p.help, complaint := "" }
  else { code := 2, output := "", complaint := p.usage e }

end Ending

end LoadRig
