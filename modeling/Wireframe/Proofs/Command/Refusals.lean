import Wireframe.Proofs.Command.Reports
import Wireframe.Proofs.Command.Rereading

/-!
Contract: what commands that fail leave on the disk, and what they print.

Owns:
- `Reads`, attempts that change no disk;
- `Ended`, the ways in which the attempt of a command can end;
- the disk after a refusal, and the one value that a failure prints;
- a page whose edit is refused when all is read.

Does not own: which inputs are refused.

A command reads all that it needs before it writes anything, so that how it ends is
settled by what follows its last reading.
-/

namespace Wireframe.Command

open Json

/-! ### Attempts that read -/

namespace Attempt

variable {α β ε : Type} {attempt : Attempt α} {next : α → Attempt β}

/-- The attempt leaves every disk as it is. -/
def Reads (attempt : Attempt α) : Prop :=
  ∀ disk, ∃ result, attempt.onDisk disk = (result, disk)

theorem reads_pure (value : α) : Reads (pure value) :=
  fun _ => ⟨_, rfl⟩

theorem reads_orFail (describe : ε → Failure) (result : Except ε α) :
    Reads (orFail describe result) := by
  intro disk
  cases result <;> exact ⟨_, rfl⟩

theorem reads_readText (path : String) : Reads (readText path) :=
  fun _ => ⟨_, rfl⟩

theorem Reads.bind (reads : Reads attempt) (goesOn : ∀ value, Reads (next value)) :
    Reads (attempt >>= next) := by
  intro disk
  obtain ⟨result, runs⟩ := reads disk
  cases result with
  | error failure => exact ⟨_, onDisk_bind_of_error runs⟩
  | ok value =>
      rw [onDisk_bind_of_ok runs]
      exact goesOn value disk

end Attempt

open Attempt

theorem reads_loadConfig (config : Option String) : Reads (loadConfig config) := by
  cases config with
  | none => exact reads_pure _
  | some path =>
      exact (reads_readText path).bind fun _ => (reads_orFail _ _).bind fun _ => reads_orFail _ _

theorem reads_readJson (path : String) : Reads (readJson path) :=
  (reads_readText path).bind fun _ => (reads_orFail _ _).bind fun _ => reads_orFail _ _

theorem reads_loadDocument (config : Config) (path : String) :
    Reads (loadDocument config path) :=
  (reads_readJson path).bind fun _ => reads_orFail _ _

theorem reads_generateOptions (config : Config) (framework : Option String) :
    Reads (generateOptions config framework) := by
  cases framework with
  | none => exact reads_pure _
  | some name => exact (reads_orFail _ _).bind fun _ => reads_pure _

/-! ### How attempts end -/

/-- How the attempt of a command can end. The disk can have changed only where it succeeds,
and where something could not be written. -/
inductive Ended (command : Command) (disk : Disk) : Except Failure Outcome → Disk → Prop
  | refused (message : String) (violations : Option (List Violation)) :
      Ended command disk (.error (.refused message violations)) disk
  | unable (message : String) (after : Disk) :
      Ended command disk (.error (.unable message)) after
  | invalid {path : String} {report : Report} :
      command = .validate path → report.valid = false →
      Ended command disk (.ok ⟨exitRefused, (Report.codec.encode report).pretty ++ "\n"⟩) disk
  | succeeded (outcome : Outcome) (after : Disk) :
      outcome.exitCode = 0 → Ended command disk (.ok outcome) after

/-- On every disk the attempt ends in one of these ways. -/
def Ending (command : Command) (attempt : Attempt Outcome) : Prop :=
  ∀ disk, ∃ result after, attempt.onDisk disk = (result, after) ∧
    Ended command disk result after

section Endings

variable {command : Command}

/-- What is read before does not change how an attempt can end. -/
theorem Ending.of_reads {α : Type} {attempt : Attempt α} {next : α → Attempt Outcome}
    (reads : Reads attempt) (goesOn : ∀ value, Ending command (next value)) :
    Ending command (attempt >>= next) := by
  intro disk
  obtain ⟨result, runs⟩ := reads disk
  cases result with
  | error failure =>
      refine ⟨_, _, onDisk_bind_of_error runs, ?_⟩
      cases failure with
      | unable message => exact .unable message disk
      | refused message violations => exact .refused message violations
  | ok value =>
      rw [onDisk_bind_of_ok runs]
      exact goesOn value disk

theorem ending_printed (text : String) : Ending command (pure (printed text)) :=
  fun disk => ⟨_, disk, rfl, .succeeded _ _ rfl⟩

theorem ending_emit (target : Option String) (text : String) :
    Ending command (emit target text) := by
  cases target with
  | none => exact ending_printed text
  | some path =>
      intro disk
      obtain ⟨result, after, runs, writes⟩ := writes_writeFile path text disk
      cases writes with
      | written _ => exact ⟨_, _, onDisk_bind_of_ok runs, .succeeded _ _ rfl⟩
      | unable message _ => exact ⟨_, _, onDisk_bind_of_error runs, .unable message after⟩

/-- Files that cannot be written are no refusal. -/
theorem WritesAll.unable_or_ok {directory : String} {disk after : Disk}
    {files : List (String × String)} {result : Except Failure Unit}
    (writes : WritesAll directory disk files result after) :
    result = .ok () ∨ ∃ message, result = .error (.unable message) := by
  induction writes with
  | nil => exact .inl rfl
  | written _ _ inductionHypothesis => exact inductionHypothesis
  | unable message _ => exact .inr ⟨message, rfl⟩

theorem ending_writeFiles (directory : String) (files : List (String × String))
    (text : String) :
    Ending command (do writeFiles directory files; pure (printed text)) := by
  intro disk
  obtain ⟨result, after, runs, writes⟩ := writesAll_writeFiles directory files disk
  rcases writes.unable_or_ok with rfl | ⟨message, rfl⟩
  · exact ⟨_, _, onDisk_bind_of_ok runs, .succeeded _ _ rfl⟩
  · exact ⟨_, _, onDisk_bind_of_error runs, .unable message after⟩

theorem ending_runValidate (config : Config) (path : String) :
    Ending (.validate path) (runValidate config path) := by
  refine .of_reads (reads_readJson path) fun value disk => ⟨_, disk, rfl, ?_⟩
  cases isValid : (Check.report config.policy value).valid with
  | true => exact .succeeded _ _ rfl
  | false => exact .invalid rfl isValid

theorem ending_runPatch (config : Config) (path patchesPath : String) (out : Option String) :
    Ending command (runPatch config path patchesPath out) :=
  .of_reads (reads_loadDocument config path) fun _ =>
    .of_reads (reads_readJson patchesPath) fun _ =>
      .of_reads (reads_orFail _ _) fun _ =>
        .of_reads (reads_orFail _ _) fun _ => ending_emit out _

theorem ending_runGenerate (config : Config) (path : String) (framework out : Option String) :
    Ending command (runGenerate config path framework out) := by
  refine .of_reads (reads_generateOptions config framework) fun _ =>
    .of_reads (reads_loadDocument config path) fun _ => ?_
  cases out with
  | none => exact ending_printed _
  | some directory => exact ending_writeFiles directory _ _

theorem ending_attempt (invocation : Invocation) :
    Ending invocation.command (attempt invocation) := by
  obtain ⟨command, config, verbose⟩ := invocation
  refine .of_reads (reads_loadConfig config) fun settings => ?_
  cases command with
  | validate path => exact ending_runValidate settings path
  | patch path patchesPath out => exact ending_runPatch settings path patchesPath out
  | generate path framework out => exact ending_runGenerate settings path framework out
  | sample out => exact ending_emit _ _

end Endings

/-! ### What failures print -/

/-- The output is one value and a line break. -/
structure Outcome.PrintsOnly (outcome : Outcome) (value : Value) : Prop where
  line : outcome.output = value.compact ++ "\n" ∨ outcome.output = value.pretty ++ "\n"
  readsBack : outcome.value? = some value.sortKeys

/-- What a command that fails prints: an object that says so, or the report on a document
that is not valid. -/
inductive Complains (command : Command) (outcome : Outcome) : Prop
  | failure (members : List (String × Value)) :
      outcome.PrintsOnly (.object members) →
      Value.member? "success" members = some (.bool false) → Complains command outcome
  | invalid (path : String) (report : Report) :
      command = .validate path → outcome.PrintsOnly (Report.codec.encode report) →
      report.valid = false → Complains command outcome

theorem Failure.complains (failure : Failure) (command : Command) :
    Complains command failure.outcome := by
  obtain ⟨members, isReport, distinct, tells⟩ : ∃ members,
      failure.report = .object members ∧
        ((members.map fun member => (member.1, member.2.sortKeys)).map Prod.fst).Nodup ∧
        (members.map fun member => (member.1, member.2.sortKeys)).lookup "success" =
          some (.bool false) := by
    cases failure with
    | unable message => exact ⟨_, rfl, by simp, rfl⟩
    | refused message violations => cases violations <;> exact ⟨_, rfl, by simp, rfl⟩
  have isSorted := congrArg Value.sortKeys isReport
  rw [Value.sortKeys_object] at isSorted
  refine .failure _ ⟨?_, ?_⟩ ((Value.lookup_orderMembers distinct "success").trans tells)
  · rw [← isSorted]
    cases failure with
    | unable message => exact .inl rfl
    | refused message violations => exact .inr rfl
  · rw [← isSorted, Value.sortKeys_sortKeys, failure.value?_outcome]

/-- A document that is not valid is reported, and nothing else is printed. -/
theorem complains_of_not_valid (path : String) {report : Report}
    (notValid : report.valid = false) :
    Complains (.validate path)
      ⟨exitRefused, (Report.codec.encode report).pretty ++ "\n"⟩ := by
  have fits : (Report.codec.encode report).depth ≤ nestingLimit :=
    (Report.depth_encode report).trans (by decide)
  exact .invalid path report rfl ⟨.inr rfl, value?_of_prints fits rfl⟩ notValid

/-! ### Runs -/

section Runs

variable {arguments : List String} {invocation : Invocation} {disk after : Disk}
  {outcome : Outcome}

theorem spares_and_complains_of_run
    (runs : (run invocation).runOn disk = (outcome, after)) :
    (outcome.exitCode = exitRefused → after = disk) ∧
      (outcome.exitCode ≠ 0 → Complains invocation.command outcome) := by
  obtain ⟨result, last, attempted, ended⟩ := ending_attempt invocation disk
  have ran : (outcome, after) = match result with
      | .ok outcome => (outcome, last)
      | .error failure => (failure.outcome, last) := by
    cases result with
    | error failure => exact runs.symm.trans (runOn_run_of_error attempted)
    | ok outcome => exact runs.symm.trans (runOn_run_of_ok attempted)
  cases ended with
  | refused message violations =>
      obtain ⟨rfl, rfl⟩ := Prod.mk.inj ran
      exact ⟨fun _ => rfl, fun _ => Failure.complains _ _⟩
  | unable message =>
      obtain ⟨rfl, rfl⟩ := Prod.mk.inj ran
      have notRefused : exitUnable ≠ exitRefused := by decide
      exact ⟨fun refuses => absurd refuses notRefused, fun _ => Failure.complains _ _⟩
  | invalid isValidate notValid =>
      obtain ⟨rfl, rfl⟩ := Prod.mk.inj ran
      rw [isValidate]
      exact ⟨fun _ => rfl, fun _ => complains_of_not_valid _ notValid⟩
  | succeeded other last succeeds =>
      obtain ⟨rfl, rfl⟩ := Prod.mk.inj ran
      rw [succeeds]
      exact ⟨fun refuses => absurd refuses (by decide), fun fails => absurd rfl fails⟩

/-- Whatever the disk holds, and whatever the arguments are: a command that refuses its
input leaves the disk as it was, and a failing one prints a single value that says so,
unless the arguments themselves are not understood. -/
theorem rejection_spares_disk (runs : (program arguments).runOn disk = (outcome, after)) :
    (outcome.exitCode = exitRefused → after = disk) ∧
      (outcome.exitCode ≠ 0 → Invocation.parse arguments ≠ .error .usage →
        ∃ invocation, Invocation.parse arguments = .ok invocation ∧
          Complains invocation.command outcome) := by
  unfold program at runs
  cases parses : Invocation.parse arguments with
  | error halt =>
      rw [parses] at runs
      obtain ⟨rfl, rfl⟩ := Prod.mk.inj runs
      refine ⟨fun _ => rfl, fun fails notUsage => ?_⟩
      cases halt with
      | usage => exact absurd rfl notUsage
      | help => exact absurd rfl fails
  | ok invocation =>
      rw [parses] at runs
      obtain ⟨spares, complains⟩ := spares_and_complains_of_run runs
      exact ⟨spares, fun fails _ => ⟨invocation, rfl, complains fails⟩⟩

end Runs

/-! ### An edit of the root -/

namespace Desk

/-- Takes the root away, which every page needs. -/
def uprooting : Value :=
  .array [.object [("op", .string "remove"), ("targetId", .string "r")]]

/-- A disk with the page at `d`, the edit at `p`, and in a directory what an earlier edit
left. -/
def keptDisk : Disk where
  workingDirectory := []
  entries := [(["d"], .file page.pretty.toUTF8), (["p"], .file uprooting.pretty.toUTF8),
    (["o"], .directory), (["o", "f"], .file page.pretty.toUTF8)]

def overwriting : List String := ["patch", "d", "--patches", "p", "--out", "o/f"]

theorem parse_overwriting : Invocation.parse overwriting =
    .ok ⟨.patch "d" "p" (some "o/f"), none, false⟩ :=
  rfl

/-- Both files are accepted, and the edit fails. -/
theorem exists_patched_uprooting :
    ∃ document patches error, Check.validate .lenient page = .ok document ∧
      Check.validatePatches uprooting = .ok patches ∧ document.patched patches = .error error := by
  have evaluates : ((Check.validate .lenient page).toOption.bind fun document =>
      (Check.validatePatches uprooting).toOption.map fun patches =>
        (document.patched patches).toOption.isNone) = some true := by
    decide +kernel
  obtain ⟨document, accepted, evaluates⟩ := Option.bind_eq_some_iff.mp evaluates
  obtain ⟨patches, acceptedPatches, isNone⟩ := Option.map_eq_some_iff.mp evaluates
  cases fails : document.patched patches with
  | ok patched =>
      rw [fails] at isNone
      exact absurd isNone nofun
  | error error =>
      exact ⟨document, patches, error, ok_of_toOption accepted, ok_of_toOption acceptedPatches,
        fails⟩

theorem run_overwriting :
    ∃ outcome after, (program overwriting).runOn keptDisk = (outcome, after) ∧
      outcome.exitCode = exitRefused := by
  obtain ⟨document, patches, error, accepted, acceptedPatches, fails⟩ := exists_patched_uprooting
  have reads : keptDisk.readText "d" = .ok page.pretty :=
    Disk.readText_of_entryAt? rfl rfl rfl
  have holdsDocument := holdsDocument_page reads accepted
  have holdsPatches : keptDisk.HoldsPatches "p" patches :=
    ⟨uprooting.pretty, uprooting, Disk.readText_of_entryAt? rfl rfl rfl,
      parse_pretty (by decide), acceptedPatches⟩
  rw [program_of_parse parse_overwriting]
  exact ⟨_, _, (Prod.eta _).symm, run_patch_of_error holdsDocument holdsPatches fails⟩

/-- All is read and accepted before the edit fails, and the file that its result was meant
to replace is there as it was. -/
theorem rejection_spares_disk_uprooting :
    ∃ outcome after, (program overwriting).runOn keptDisk = (outcome, after) ∧
      outcome.exitCode = exitRefused ∧ after = keptDisk ∧
      Complains (.patch "d" "p" (some "o/f")) outcome := by
  obtain ⟨outcome, after, runs, refuses⟩ := run_overwriting
  have fails : outcome.exitCode ≠ 0 := by
    rw [refuses]
    decide
  have notUsage : Invocation.parse overwriting ≠ .error .usage := by
    rw [parse_overwriting]
    exact nofun
  obtain ⟨spares, complains⟩ := rejection_spares_disk runs
  obtain ⟨invocation, parses, complains⟩ := complains fails notUsage
  obtain rfl := Except.ok.inj (parse_overwriting.symm.trans parses)
  exact ⟨outcome, after, runs, refuses, spares refuses, complains⟩

end Desk

end Wireframe.Command
