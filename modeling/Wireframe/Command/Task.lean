import Wireframe.Command.Path

/-!
Contract: what a command asks of the disk.

Owns:
- `SystemError` and `ReadError`, the answers that a request may fail with;
- `Task`, a command as a tree of requests and continuations;
- `createDirectories`, a directory with all that are missing above it.

Does not own: a disk. A task is run on a model of one or on the real one.
-/

namespace Wireframe.Command

/-- A refusal of the operating system. -/
inductive SystemError where
  | notFound
  | alreadyExists
  | notDirectory
  | isDirectory
  | nameTooLong
  | other (description : String) (code : Nat)
deriving DecidableEq

namespace SystemError

def message : SystemError → String
  | .notFound => "No such file or directory (os error 2)"
  | .alreadyExists => "File exists (os error 17)"
  | .notDirectory => "Not a directory (os error 20)"
  | .isDirectory => "Is a directory (os error 21)"
  | .nameTooLong => "File name too long (os error 36)"
  | .other description code => s!"{description} (os error {code})"

end SystemError

/-- Why a file cannot be read as text. -/
inductive ReadError where
  | system (error : SystemError)
  | notText
deriving DecidableEq

namespace ReadError

def message : ReadError → String
  | .system error => error.message
  | .notText => "stream did not contain valid UTF-8"

end ReadError

/-- A computation that asks a disk. -/
inductive Task (α : Type) where
  | done (value : α)
  | readText (path : String) (next : Except ReadError String → Task α)
  | makeDirectory (path : String) (next : Except SystemError Unit → Task α)
  | isDirectory (path : String) (next : Bool → Task α)
  | writeText (path text : String) (next : Except SystemError Unit → Task α)

namespace Task

def bind {α β : Type} : Task α → (α → Task β) → Task β
  | .done value, rest => rest value
  | .readText path next, rest => .readText path fun answer => (next answer).bind rest
  | .makeDirectory path next, rest =>
      .makeDirectory path fun answer => (next answer).bind rest
  | .isDirectory path next, rest => .isDirectory path fun answer => (next answer).bind rest
  | .writeText path text next, rest =>
      .writeText path text fun answer => (next answer).bind rest

instance : Monad Task where
  pure := .done
  bind := bind

/-- Makes a directory, or finds that it is there. -/
def ensureDirectory (path : String) : Task (Except SystemError Unit) :=
  .makeDirectory path fun
    | .ok () => .done (.ok ())
    | .error error => .isDirectory path fun isDirectory =>
        .done (if isDirectory then .ok () else .error error)

/-- Makes a directory after those above it that are missing. Every step up
shortens the path, so a bound by its length is never reached. -/
def createDirectoriesWithin : Nat → String → Task (Except SystemError Unit)
  | 0, _ => .done (.error .notFound)
  | bound + 1, path =>
      if path.isEmpty then .done (.ok ())
      else do
        match ← ensureDirectory path with
        | .error .notFound =>
            match Path.parent? path with
            | none => .done (.error .notFound)
            | some parent =>
                match ← createDirectoriesWithin bound parent with
                | .error error => .done (.error error)
                | .ok () => ensureDirectory path
        | answer => .done answer

def createDirectories (path : String) : Task (Except SystemError Unit) :=
  createDirectoriesWithin (path.length + 1) path

end Task

end Wireframe.Command
