import LoadRig.Chat.Hall
import LoadRig.Program.Load
import LoadRig.Program.Preflight
import LoadRig.Program.Server
import Std.Time.DateTime.Timestamp
/-!
# The command line

The three programs under one name: the first word says which of them is meant. What a program reads
is fetched from the disk beforehand, and what it leaves is put there afterwards; everything in
between is a value.

There are no sockets here. The load program and the preflight program find nobody at the other end,
unless the stand-in is asked for. The service listens to standard input in place of a socket: each
line is a text frame of one visitor, and the end of input interrupts it.

## Main definitions

* `main` — runs one of the programs.
-/

namespace LoadRig.Main

/-- Milliseconds since 1970. -/
def epoch : IO Int := do
  return (← Std.Time.Timestamp.now).toMillisecondsSinceUnixEpoch.val

/-- What stands at a name on the disk. -/
def look (name : String) : IO (Option Entry) := do
  try
    return some (.file (← IO.FS.readBinFile name))
  catch e =>
    match e with
    | .inappropriateType .. => return some .directory
    | _ => return none

/-- Fetches what stands at a path and on the way to it. -/
def fetch (files : Files) (path : List String) : IO Files := do
  let mut files := files
  for i in List.range path.length do
    let p := path.take (i + 1)
    if !Files.leadsUp p then
      if let some entry ← look (Files.nameOf p) then files := files.put p entry
  return files

/-- The part of the disk that some names lead to. -/
def fetchAll (names : List String) : IO Files :=
  names.foldlM (fun files name => fetch files (Files.components name)) {}

/-- Puts on the disk what was not in the tree before. -/
def store (before after : Files) : IO Unit := do
  for (path, entry) in after.entries.reverse do
    match entry, before.at? path with
    | .directory, none => IO.FS.createDirAll (Files.nameOf path)
    | .directory, some _ => pure ()
    | .file content, some (.file old) =>
      if content.data != old.data then IO.FS.writeBinFile (Files.nameOf path) content
    | .file content, _ => IO.FS.writeBinFile (Files.nameOf path) content

/-- Tells how a program ended. -/
def conclude (e : Ending) : IO UInt32 := do
  IO.print e.output
  IO.eprint e.complaint
  return UInt32.ofNat e.code

/-- The load program. -/
def load (words : List String) : IO UInt32 := do
  let names := match LoadArguments.read words with
    | .ok a => a.config.toList ++ [a.resultsDir]
    | .error _ => []
  let files ← fetchAll names
  let seed ← IO.rand 0 narrowLimit
  let (ending, after) := runLoad words { files, epoch := ← epoch, seed }
  store files after
  conclude ending

/-- The preflight program. -/
def preflight (words : List String) : IO UInt32 := do
  let names := match PreflightArguments.read words with
    | .ok a => a.config.toList
    | .error _ => []
  let files ← fetchAll names
  let shared : Shared := { epoch := ← epoch, queue := .bounded 1 }
  conclude
    (runPreflight words files { health := .nobody, socket := .wire .cut } shared.instant)

/-- Answers lines of standard input until it ends. -/
partial def converse (input : IO.FS.Stream) (hall : Hall) : IO Unit := do
  let line ← input.getLine
  if line.isEmpty then return
  let shared : Shared := { epoch := ← epoch, queue := .bounded 1 }
  let text := line.toList.filter (· != '\n')
  let (hall, reply) := hall.handle shared.instant.text 0 (.text text true)
  if let some r := reply then IO.println (String.ofList r.text)
  converse input hall

/-- The service. -/
def serve (words : List String) : IO UInt32 := do
  match openServer words [] with
  | .error ending => conclude ending
  | .ok _ =>
    converse (← IO.getStdin) (Hall.welcome {} 0 ['1'])
    conclude closeServer

/-- What is told when no program is meant. -/
def programs : String :=
  "".intercalate ([LoadArguments.program, PreflightArguments.program, ServerArguments.program].map
    fun p => p.name ++ "\n    " ++ p.about ++ "\n")

end LoadRig.Main

/-- Runs the program that the first word names. -/
def main : List String → IO UInt32
  | "chatload" :: words => LoadRig.Main.load words
  | "preflight" :: words => LoadRig.Main.preflight words
  | "chat-server" :: words => LoadRig.Main.serve words
  | _ => do
    IO.eprint LoadRig.Main.programs
    return 2
