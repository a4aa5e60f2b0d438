import Wireframe.Command.Run

/-!
Contract: the command line on the real disk. It performs the requests of a
task; what the commands do is decided there.
-/

namespace Wireframe.Command

/-- The number of an error, which the runtime may hand over negated. -/
def errorNumber (code : UInt32) : Nat :=
  if code.toNat < 2147483648 then code.toNat else 4294967296 - code.toNat

def systemError : IO.Error → SystemError
  | .noFileOrDirectory .. => .notFound
  | .alreadyExists .. => .alreadyExists
  | .permissionDenied _ code details => .other details (errorNumber code)
  | .inappropriateType _ code details | .invalidArgument _ code details
  | .otherError code details =>
      match errorNumber code with
      | 2 => .notFound
      | 17 => .alreadyExists
      | 20 => .notDirectory
      | 21 => .isDirectory
      | 36 => .nameTooLong
      | number => .other details number
  | error => .other (toString error) 0

def answered {α : Type} (action : IO α) : IO (Except SystemError α) := do
  match ← action.toBaseIO with
  | .ok value => pure (.ok value)
  | .error error => pure (.error (systemError error))

def performRead (path : String) : IO (Except ReadError String) := do
  match ← answered (IO.FS.readBinFile path) with
  | .error error => pure (.error (.system error))
  | .ok content =>
      match String.fromUTF8? content with
      | some text => pure (.ok text)
      | none => pure (.error .notText)

/-- Whether a path leads to a directory, which is what reading it tells. -/
def performIsDirectory (path : String) : IO Bool := do
  match ← answered (IO.FS.readBinFile path) with
  | .error error => pure (error == .isDirectory)
  | .ok _ => pure false

def perform {α : Type} : Task α → IO α
  | .done value => pure value
  | .readText path next => do perform (next (← performRead path))
  | .makeDirectory path next => do perform (next (← answered (IO.FS.createDir path)))
  | .isDirectory path next => do perform (next (← performIsDirectory path))
  | .writeText path text next => do
      perform (next (← answered (IO.FS.writeFile path text)))

end Wireframe.Command

open Wireframe.Command in
def main (arguments : List String) : IO UInt32 := do
  let outcome ← perform (program arguments)
  IO.print outcome.output
  if outcome.exitCode ≠ 0 ∧ outcome.output.isEmpty then IO.eprint helpText
  pure (UInt32.ofNat outcome.exitCode)
