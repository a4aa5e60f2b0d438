import Wireframe.Bundle.Generate
import Wireframe.Command.Arguments
import Wireframe.Command.Disk
import Wireframe.Config
import Wireframe.Digest.Fingerprint
import Wireframe.Patch.Apply
import Wireframe.Sample

/-!
Contract: what the commands do.

Owns:
- `Failure`, why a command fails, with its exit code and report;
- the commands as tasks;
- `run`, the outcome of an invocation.

Every check comes before the first request that changes the disk.
-/

namespace Wireframe.Command

open Json

/-- The end of a command: its exit code and what it printed. -/
structure Outcome where
  exitCode : Nat
  output : String
deriving DecidableEq

def exitUnable : Nat := 1

def exitRefused : Nat := 2

/-- Why a command fails. -/
inductive Failure where
  /-- Something could not be read or written. -/
  | unable (message : String)
  /-- The input is refused, for some violations if they are given. -/
  | refused (message : String) (violations : Option (List Violation))

namespace Failure

def refusedFor (rejection : Rejection) : Failure :=
  .refused rejection.message (some rejection.violations)

def report : Failure → Value
  | .unable message => .object [("error", .string message), ("success", .bool false)]
  | .refused message violations =>
      .object ([("error", .string message), ("success", .bool false)] ++
        match violations with
        | some violations =>
            [("violations", .array (violations.map Violation.codec.encode))]
        | none => [])

def outcome (failure : Failure) : Outcome :=
  match failure with
  | .unable _ => ⟨exitUnable, failure.report.sortKeys.compact ++ "\n"⟩
  | .refused _ _ => ⟨exitRefused, failure.report.sortKeys.pretty ++ "\n"⟩

end Failure

/-- A task that may fail. -/
abbrev Attempt := ExceptT Failure Task

def readText (path : String) : Attempt (Except ReadError String) :=
  ExceptT.lift (.readText path .done)

def orFail {ε α : Type} (describe : ε → Failure) : Except ε α → Attempt α
  | .ok value => pure value
  | .error error => throw (describe error)

/-- The settings in a file, or the usual ones. -/
def loadConfig : Option String → Attempt Config
  | none => pure {}
  | some path => do
      let text ← orFail
        (fun error => .unable s!"Failed to read config {path}: {error.message}")
        (← readText path)
      orFail
        (fun failure => .unable (Config.failureMessage failure ++
          (Position.ofOffset text failure.offset).suffix))
        (Config.ofText text)

def readJson (path : String) : Attempt Value := do
  let text ← orFail (fun error => .unable s!"Failed to read {path}: {error.message}")
    (← readText path)
  orFail
    (fun failure => .refused
      (s!"Invalid JSON in {path}: " ++ failure.fault.message ++
        (Position.ofOffset text failure.offset).suffix) none)
    (parse text)

def loadDocument (config : Config) (path : String) : Attempt Document := do
  orFail Failure.refusedFor (Check.validate config.policy (← readJson path))

def writeFile (path text : String) : Attempt Unit := do
  match Path.parent? path with
  | none => pure ()
  | some parent =>
      orFail (fun error => .unable s!"Failed to create {parent}: {error.message}")
        (← ExceptT.lift (Task.createDirectories parent))
  orFail (fun error => .unable s!"Failed to write {path}: {error.message}")
    (← ExceptT.lift (Task.writeText path text .done))

def printed (text : String) : Outcome := ⟨0, text ++ "\n"⟩

/-- A text, written to a file if there is one and printed otherwise. -/
def emit (target : Option String) (text : String) : Attempt Outcome := do
  match target with
  | none => pure (printed text)
  | some path =>
      writeFile path text
      pure ⟨0, ""⟩

/-- Every file of a bundle, in the order of the paths. -/
def writeFiles (directory : String) : List (String × String) → Attempt Unit
  | [] => pure ()
  | (path, text) :: rest => do
      writeFile (Path.join directory path) text
      writeFiles directory rest

def bundleSummary (bundle : CodeBundle) : Value :=
  .object [("digest", .string bundle.digest), ("entry", .string bundle.entry),
    ("files", .array (bundle.files.map fun file => .string file.1)),
    ("framework", .string bundle.framework.name), ("success", .bool true)]

def runValidate (config : Config) (path : String) : Attempt Outcome := do
  let report := Check.report config.policy (← readJson path)
  pure ⟨if report.valid then 0 else exitRefused,
    (Report.codec.encode report).pretty ++ "\n"⟩

def runPatch (config : Config) (path patchesPath : String) (out : Option String) :
    Attempt Outcome := do
  let document ← loadDocument config path
  let patches ← orFail Failure.refusedFor (Check.validatePatches (← readJson patchesPath))
  let patched ← orFail (fun error => .refused error.message none)
    (document.patched patches)
  emit out patched.serialize

/-- The options of a generation: a framework that is named counts before the
settings. -/
def generateOptions (config : Config) : Option String → Attempt GenerateOptions
  | none => pure config.generateOptions
  | some name => do
      let framework ← orFail (fun error => .refused error.message none)
        (Framework.ofName name)
      pure ⟨framework⟩

def runGenerate (config : Config) (path : String) (framework out : Option String) :
    Attempt Outcome := do
  let options ← generateOptions config framework
  let document ← loadDocument config path
  let bundle := document.generate options
  match out with
  | none => pure (printed (CodeBundle.codec.encode bundle).pretty)
  | some directory =>
      writeFiles directory bundle.files
      pure (printed (bundleSummary bundle).pretty)

/-- The name of the file that the demonstration document is written to. -/
def sampleName : String := "sample-ui-ir.json"

/-- Prints or writes the demonstration document. -/
def runSample (out : Option String) : Attempt Outcome :=
  emit (out.map fun directory => Path.join directory sampleName) Sample.document.serialize

def attempt (invocation : Invocation) : Attempt Outcome := do
  let config ← loadConfig invocation.config
  match invocation.command with
  | .validate document => runValidate config document
  | .patch document patches out => runPatch config document patches out
  | .generate document framework out => runGenerate config document framework out
  | .sample out => runSample out

/-- The outcome of a command, failed or not. -/
def run (invocation : Invocation) : Task Outcome := do
  match ← (attempt invocation).run with
  | .ok outcome => pure outcome
  | .error failure => pure failure.outcome

def helpText : String :=
  "validate, patch and generate code from documents\n\n" ++
  "Usage: [OPTIONS] <COMMAND>\n\n" ++
  "Commands:\n" ++
  "  validate DOCUMENT                  print the report on a document\n" ++
  "  patch DOCUMENT -p PATCHES [-o OUT] apply patches to a document\n" ++
  "  generate DOCUMENT [-f NAME] [-o OUT] generate a source bundle\n" ++
  "  sample [-o OUT]                    print or write the demonstration document\n\n" ++
  "Options:\n" ++
  "  -c, --config CONFIG  path to a JSON config file\n" ++
  "  -v, --verbose        accepted for all commands\n" ++
  "  -h, --help           print help\n"

def Halt.outcome : Halt → Outcome
  | .usage => ⟨exitRefused, ""⟩
  | .help => ⟨0, helpText⟩

def program (arguments : List String) : Task Outcome :=
  match Invocation.parse arguments with
  | .error halt => .done halt.outcome
  | .ok invocation => run invocation

end Wireframe.Command
