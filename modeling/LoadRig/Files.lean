/-!
# A file tree

What a program reads and writes is a tree of directories and files, reached by relative names with
slashes in them. The tree is a value here, so that a run can be described as the tree it leaves
behind; a program that works on a real disk fetches what it needs into such a value and carries out
the changes afterwards.

## Main definitions

* `LoadRig.Files` — what stands at which path.
* `LoadRig.FileError` — why a path cannot be used; `LoadRig.FileError.message` is its text.
* `LoadRig.Files.read`, `LoadRig.Files.makeDirectories`, `LoadRig.Files.write`
-/

namespace LoadRig

/-- Why a path cannot be used. -/
inductive FileError where
  | notFound
  | notADirectory
  | isADirectory
  | alreadyExists
  | notText
deriving DecidableEq, Repr

/-- The text of a file error, with the number of the operating system where it has one. -/
def FileError.message : FileError → String
  | notFound => "No such file or directory (os error 2)"
  | notADirectory => "Not a directory (os error 20)"
  | isADirectory => "Is a directory (os error 21)"
  | alreadyExists => "File exists (os error 17)"
  | notText => "stream did not contain valid UTF-8"

/-- What stands at a path. -/
inductive Entry where
  | file (content : ByteArray)
  | directory

/-- A file tree: the entries by the components of their names, as seen from some directory. -/
structure Files where
  entries : List (List String × Entry) := []

namespace Files

/-- Puts a component behind others. An empty one and a single dot change nothing; two dots take the
component before them away, and stay where there is nothing to take. -/
def enter (path : List String) (part : String) : List String :=
  if part.isEmpty || part == "." then path
  else if part == ".." then
    match path.getLast? with
    | none => [".."]
    | some last =>
      if last == "/" then path else if last == ".." then path ++ [".."] else path.dropLast
  else path ++ [part]

/-- The components of a name. One that begins with a slash begins at the root of all names, and the
slash is its first component. -/
def components (name : String) : List String :=
  (name.splitToList (· == '/')).foldl enter (if name.startsWith "/" then ["/"] else [])

/-- The name of a path. -/
def nameOf : List String → String
  | "/" :: path => "/" ++ "/".intercalate path
  | path => "/".intercalate path

/-- Whether a path only leads up; there are always directories there. -/
def leadsUp (path : List String) : Bool := path.all fun part => part == ".." || part == "/"

/-- What stands at a path. -/
def at? (f : Files) (path : List String) : Option Entry :=
  if leadsUp path then some .directory
  else (f.entries.find? (·.1 == path)).map (·.2)

/-- The first reason why the directories above a path do not lead to it. -/
def blocked? (f : Files) (path : List String) : Option FileError :=
  (List.range path.length).findSome? fun i =>
    match f.at? (path.take i) with
    | none => some .notFound
    | some .directory => none
    | some (.file _) => some .notADirectory

/-- Reads the text of a file. -/
def read (f : Files) (name : String) : Except FileError String :=
  if name.isEmpty then .error .notFound
  else
    let path := components name
    match f.blocked? path with
    | some e => .error e
    | none =>
      match f.at? path with
      | none => .error .notFound
      | some .directory => .error .isADirectory
      | some (.file content) =>
        if name.endsWith "/" then .error .notADirectory
        else
          match String.fromUTF8? content with
          | some text => .ok text
          | none => .error .notText

/-- Puts an entry at a path. -/
def put (f : Files) (path : List String) (e : Entry) : Files :=
  { entries := (path, e) :: f.entries.filter (·.1 != path) }

/-- Makes a directory and those above it; directories that are there already may stay. -/
def makeDirectories (f : Files) (name : String) : Except FileError Files :=
  let path := components name
  (List.range (path.length + 1)).foldlM
    (fun f i =>
      match f.at? (path.take i) with
      | some .directory => .ok f
      | some (.file _) => .error (if i = path.length then .alreadyExists else .notADirectory)
      | none => .ok (f.put (path.take i) .directory)) f

/-- Writes a file, in place of one that is there already. A name with a slash at its end is for
directories only. -/
def write (f : Files) (name : String) (text : String) : Except FileError Files :=
  if name.isEmpty then .error .notFound
  else
    let path := components name
    match f.blocked? path with
    | some e => .error e
    | none =>
      if name.endsWith "/" then .error .isADirectory
      else
        match f.at? path with
        | some .directory => .error .isADirectory
        | _ => .ok (f.put path (.file text.toUTF8))

/-- A name inside a directory. -/
def join (directory name : String) : String :=
  if directory.isEmpty then name
  else if directory.endsWith "/" then directory ++ name
  else directory ++ "/" ++ name

/-- The directory of a name, without slashes at its end. -/
def parent (name : String) : String :=
  let above := (name.toList.reverse.dropWhile (· != '/')).dropWhile (· == '/')
  String.ofList above.reverse

end Files

end LoadRig
