import Wireframe.Command.Task

/-!
Contract: a disk as a value, and tasks run on it.

Owns:
- `Disk`, directories and files below one root, with a working directory;
- how a path is walked, and how long it and its names may be;
- `Task.runOn`, the answers of the disk to a task's requests.
-/

namespace Wireframe.Command

/-- A place on a disk: the names that lead to it from the root. -/
abbrev Location := List String

/-- What stands at a location. -/
inductive Entry where
  | directory
  | file (content : ByteArray)

/-- A disk. The root is a directory; the first entry of a location counts. -/
structure Disk where
  workingDirectory : Location
  entries : List (Location × Entry)

namespace Disk

def entryAt? (disk : Disk) (location : Location) : Option Entry :=
  if location = [] then some .directory else disk.entries.lookup location

def put (disk : Disk) (location : Location) (entry : Entry) : Disk :=
  { disk with
    entries := (location, entry) ::
      disk.entries.filter fun other => decide (other.1 ≠ location) }

/-- The bytes that one name may have. -/
def nameLimit : Nat := 255

/-- The bytes that a path may have. -/
def pathLimit : Nat := 4095

/-- One step of a walk; it has to start at a directory. -/
def step (disk : Disk) (location : Location) (segment : String) :
    Except SystemError Location :=
  match disk.entryAt? location with
  | none => .error .notFound
  | some (.file _) => .error .notDirectory
  | some .directory =>
      if segment = "." then .ok location
      else if segment = ".." then .ok location.dropLast
      else if nameLimit < segment.utf8ByteSize then .error .nameTooLong
      else .ok (location ++ [segment])

def walk (disk : Disk) (path : String) (segments : List String) :
    Except SystemError Location :=
  if path.isEmpty then .error .notFound
  else if pathLimit < path.utf8ByteSize then .error .nameTooLong
  else segments.foldlM disk.step (if Path.isAbsolute path then [] else disk.workingDirectory)

/-- The location that a path leads to; nothing need stand there. -/
def resolve (disk : Disk) (path : String) : Except SystemError Location :=
  disk.walk path (Path.segments path)

def resolveAbove (disk : Disk) (path : String) : Except SystemError Location :=
  disk.walk path ((Path.segments path).dropLast ++ ["."])

/-- The content of the file at a path, which has to be text. -/
def readText (disk : Disk) (path : String) : Except ReadError String := do
  let location ← (disk.resolve path).mapError .system
  match disk.entryAt? location with
  | none => throw (.system .notFound)
  | some .directory => throw (.system .isDirectory)
  | some (.file content) =>
      if Path.hasTrailingSlash path then throw (.system .notDirectory)
      else
        match String.fromUTF8? content with
        | some text => pure text
        | none => throw .notText

def makeDirectory (disk : Disk) (path : String) : Except SystemError Disk := do
  let location ← disk.resolve path
  match disk.entryAt? location with
  | some _ => throw .alreadyExists
  | none => pure (disk.put location .directory)

def isDirectory (disk : Disk) (path : String) : Bool :=
  match disk.resolve path with
  | .ok location =>
      match disk.entryAt? location with
      | some .directory => true
      | _ => false
  | .error _ => false

/-- The disk with a file at a path, its content replaced if it was there. A slash
at the end calls for a directory, whatever the last name stands for. -/
def writeText (disk : Disk) (path text : String) : Except SystemError Disk :=
  if Path.hasTrailingSlash path then do
    let _ ← disk.resolveAbove path
    throw .isDirectory
  else do
    let location ← disk.resolve path
    match disk.entryAt? location with
    | some .directory => throw .isDirectory
    | _ => pure (disk.put location (.file text.toUTF8))

end Disk

/-- The disk after a change, and the answer to whoever asked for it. A refused
change leaves the disk as it was. -/
def changed (disk : Disk) : Except SystemError Disk → Disk × Except SystemError Unit
  | .ok next => (next, .ok ())
  | .error error => (disk, .error error)

namespace Task

/-- The result of a task on a disk, and the disk after it. -/
def runOn {α : Type} : Task α → Disk → α × Disk
  | .done value, disk => (value, disk)
  | .readText path next, disk => (next (disk.readText path)).runOn disk
  | .makeDirectory path next, disk =>
      let (after, answer) := changed disk (disk.makeDirectory path)
      (next answer).runOn after
  | .isDirectory path next, disk => (next (disk.isDirectory path)).runOn disk
  | .writeText path text next, disk =>
      let (after, answer) := changed disk (disk.writeText path text)
      (next answer).runOn after

end Task

end Wireframe.Command
