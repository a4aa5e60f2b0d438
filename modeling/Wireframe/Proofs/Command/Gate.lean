import Wireframe.Proofs.Command.Reports
import Wireframe.Proofs.Command.Rereading

/-!
Contract: the one gate that documents pass on the command line.

Owns:
- `Verdict`, what the gate makes of a file under some settings;
- `validate`, `generate` and `patch` without patches end as the verdict says, and print
  the violations and the document that it is about.

Does not own: what the rules of a check are, and what edits do.
-/

namespace Wireframe.Command

open Json Attempt

/-- Arguments that spell a command and name a file of settings, or none. -/
def SpellsUnder (config : Option String) (arguments : List String) (command : Command) : Prop :=
  ∃ verbose, Invocation.parse arguments = .ok ⟨command, config, verbose⟩

/-- What the gate makes of a file. -/
inductive Verdict where
  /-- The document or the settings cannot be read, or the settings are bad. -/
  | unreadable
  /-- The text of the document is no data. -/
  | malformed
  /-- Some violations of the report block under the policy. -/
  | rejected (policy : Policy) (report : Report)
  | accepted (document : Document)

namespace Verdict

def exitCode : Verdict → Nat
  | unreadable => exitUnable
  | malformed | rejected .. => exitRefused
  | accepted _ => 0

def ofValue (policy : Policy) (value : Value) : Verdict :=
  match Check.validate policy value with
  | .ok document => accepted document
  | .error _ => rejected policy (Check.report policy value)

def ofText (policy : Policy) (text : String) : Verdict :=
  match parse text with
  | .ok value => ofValue policy value
  | .error _ => malformed

end Verdict

namespace Disk

/-- The settings in a file, or the usual ones, unless they are bad or unreadable. -/
def settings? (disk : Disk) : Option String → Option Config
  | none => some {}
  | some path => (disk.readText path).toOption.bind fun text => (Config.ofText text).toOption

/-- The verdict on the file at a path under the settings in another. -/
def judge (disk : Disk) (config : Option String) (path : String) : Verdict :=
  match disk.settings? config, disk.readText path with
  | some settings, .ok text => .ofText settings.policy text
  | _, _ => .unreadable

/-- The file at a path holds an empty list. -/
def HoldsNoPatch (disk : Disk) (path : String) : Prop :=
  ∃ text, disk.readText path = .ok text ∧ parse text = .ok (.array [])

end Disk

/-- Three commands end as the verdict on their document says. -/
structure OneGate (verdict : Verdict) (validated generated edited : Outcome) : Prop where
  validates : validated.exitCode = verdict.exitCode
  generates : generated.exitCode = verdict.exitCode
  edits : edited.exitCode = verdict.exitCode
  rejects : ∀ policy report, verdict = .rejected policy report →
    validated.report? = some report ∧
      generated.violations? = some (report.violations.filter policy.blocks) ∧
      edited.violations? = some (report.violations.filter policy.blocks)
  accepts : ∀ document, verdict = .accepted document →
    edited.output = document.serialize ++ "\n"

/-- The commands that need the document at a path, and change no file. -/
inductive Loads (path patchesPath : String) : Command → Prop
  | generate : Loads path patchesPath (.generate path none none)
  | patch : Loads path patchesPath (.patch path patchesPath none)

section Steps

variable {disk : Disk} {config : Option String} {settings : Config}
  {path patchesPath text : String} {value : Value} {document : Document}

/-! ### Settings and texts -/

theorem loadConfig_of_settings (isSettings : disk.settings? config = some settings) :
    (loadConfig config).onDisk disk = (.ok settings, disk) := by
  cases config with
  | none =>
      obtain rfl := Option.some.inj isSettings
      rfl
  | some path =>
      obtain ⟨text, reads, isConfig⟩ := Option.bind_eq_some_iff.mp isSettings
      unfold loadConfig
      rw [onDisk_bind_of_ok (onDisk_readText path disk), Desk.ok_of_toOption reads,
        onDisk_bind_of_ok (onDisk_orFail_ok _ text disk), Desk.ok_of_toOption isConfig]
      rfl

theorem loadConfig_of_no_settings (noSettings : disk.settings? config = none) :
    ∃ message, (loadConfig config).onDisk disk = (.error (.unable message), disk) := by
  cases config with
  | none => exact absurd noSettings nofun
  | some path =>
      unfold loadConfig
      rw [onDisk_bind_of_ok (onDisk_readText path disk)]
      cases reads : disk.readText path with
      | error error => exact ⟨_, onDisk_bind_of_error rfl⟩
      | ok text =>
          rw [onDisk_bind_of_ok (onDisk_orFail_ok _ text disk)]
          cases isConfig : Config.ofText text with
          | error failure => exact ⟨_, rfl⟩
          | ok config =>
              have isSettings : disk.settings? (some path) = some config := by
                rw [Disk.settings?, reads, Except.toOption, Option.bind_some, isConfig]
                rfl
              exact absurd (isSettings.symm.trans noSettings) nofun

theorem readJson_of_unread {error : ReadError} (fails : disk.readText path = .error error) :
    ∃ message, (readJson path).onDisk disk = (.error (.unable message), disk) := by
  unfold readJson
  rw [onDisk_bind_of_ok (onDisk_readText path disk), fails]
  exact ⟨_, onDisk_bind_of_error rfl⟩

/-! ### Commands that fail before the gate -/

variable {command : Command} {verbose : Bool} {failure : Failure}

theorem attempt_of_config_error (fails : (loadConfig config).onDisk disk = (.error failure, disk)) :
    (attempt ⟨command, config, verbose⟩).onDisk disk = (.error failure, disk) :=
  onDisk_bind_of_error fails

theorem attempt_validate_of_unread (isSettings : disk.settings? config = some settings)
    (fails : (readJson path).onDisk disk = (.error failure, disk)) :
    (attempt ⟨.validate path, config, verbose⟩).onDisk disk = (.error failure, disk) := by
  unfold attempt
  rw [onDisk_bind_of_ok (loadConfig_of_settings isSettings)]
  exact onDisk_bind_of_error fails

/-- The commands that need a document fail as loading it does. -/
theorem attempt_of_not_loaded (needs : Loads path patchesPath command)
    (isSettings : disk.settings? config = some settings)
    (fails : (loadDocument settings path).onDisk disk = (.error failure, disk)) :
    (attempt ⟨command, config, verbose⟩).onDisk disk = (.error failure, disk) := by
  unfold attempt
  rw [onDisk_bind_of_ok (loadConfig_of_settings isSettings)]
  cases needs with
  | generate =>
      change (runGenerate settings path none none).onDisk disk = _
      unfold runGenerate
      have options : (generateOptions settings none).onDisk disk =
          (.ok settings.generateOptions, disk) := rfl
      rw [onDisk_bind_of_ok options, onDisk_bind_of_error fails]
  | patch => exact onDisk_bind_of_error fails

/-! ### Commands at the gate -/

theorem attempt_validate (isSettings : disk.settings? config = some settings)
    (reads : (readJson path).onDisk disk = (.ok value, disk)) :
    (attempt ⟨.validate path, config, verbose⟩).onDisk disk =
      (.ok ⟨if (Check.report settings.policy value).valid then 0 else exitRefused,
        (Report.codec.encode (Check.report settings.policy value)).pretty ++ "\n"⟩, disk) := by
  unfold attempt
  rw [onDisk_bind_of_ok (loadConfig_of_settings isSettings)]
  exact onDisk_bind_of_ok reads

theorem attempt_generate (isSettings : disk.settings? config = some settings)
    (loads : (loadDocument settings path).onDisk disk = (.ok document, disk)) :
    (attempt ⟨.generate path none none, config, verbose⟩).onDisk disk =
      (.ok (printed (CodeBundle.codec.encode
        (document.generate settings.generateOptions)).pretty), disk) := by
  unfold attempt
  rw [onDisk_bind_of_ok (loadConfig_of_settings isSettings)]
  exact onDisk_bind_of_ok loads

theorem attempt_patch (isSettings : disk.settings? config = some settings)
    (loads : (loadDocument settings path).onDisk disk = (.ok document, disk))
    (holds : disk.HoldsNoPatch patchesPath) :
    (attempt ⟨.patch path patchesPath none, config, verbose⟩).onDisk disk =
      (.ok (printed document.serialize), disk) := by
  obtain ⟨text, reads, parses⟩ := holds
  unfold attempt
  rw [onDisk_bind_of_ok (loadConfig_of_settings isSettings)]
  change (runPatch settings path patchesPath none).onDisk disk = _
  unfold runPatch
  rw [onDisk_bind_of_ok loads, onDisk_bind_of_ok (readJson_of_parse reads parses)]
  rfl

/-! ### How the commands end -/

/-- A line ends in an outcome, and leaves the disk as it is. -/
def Ends (disk : Disk) (arguments : List String) (outcome : Outcome) : Prop :=
  (program arguments).runOn disk = (outcome, disk)

theorem ends_of_ok {arguments : List String} {outcome : Outcome}
    (spells : SpellsUnder config arguments command)
    (runs : ∀ verbose, (attempt ⟨command, config, verbose⟩).onDisk disk = (.ok outcome, disk)) :
    Ends disk arguments outcome := by
  obtain ⟨verbose, parses⟩ := spells
  unfold Ends
  rw [program_of_parse parses, runOn_run_of_ok (runs verbose)]

theorem ends_of_error {arguments : List String} {failure : Failure}
    (spells : SpellsUnder config arguments command)
    (fails : ∀ verbose,
      (attempt ⟨command, config, verbose⟩).onDisk disk = (.error failure, disk)) :
    Ends disk arguments failure.outcome := by
  obtain ⟨verbose, parses⟩ := spells
  unfold Ends
  rw [program_of_parse parses, runOn_run_of_error (fails verbose)]

end Steps

section Gate

variable {disk : Disk} {config : Option String} {settings : Config}
  {path patchesPath text : String} {value : Value}
  {validating generating patching : List String}

/-- Three lines that put one document through the gate under the same settings. -/
structure Lines (config : Option String) (path patchesPath : String)
    (validating generating patching : List String) : Prop where
  validates : SpellsUnder config validating (.validate path)
  generates : SpellsUnder config generating (.generate path none none)
  patches : SpellsUnder config patching (.patch path patchesPath none)

/-- Three lines leave the disk as it is, and end as a verdict says. -/
def EndTogether (disk : Disk) (verdict : Verdict)
    (validating generating patching : List String) : Prop :=
  ∃ validated generated edited, Ends disk validating validated ∧
    Ends disk generating generated ∧ Ends disk patching edited ∧
    OneGate verdict validated generated edited

namespace Lines

/-- A failure that all three lines share. -/
theorem endTogether_of_failure
    (lines : Lines config path patchesPath validating generating patching)
    {failure : Failure} {verdict : Verdict}
    (validates : ∀ verbose, (attempt ⟨.validate path, config, verbose⟩).onDisk disk =
      (.error failure, disk))
    (others : ∀ command verbose, Loads path patchesPath command →
      (attempt ⟨command, config, verbose⟩).onDisk disk = (.error failure, disk))
    (sameCode : failure.outcome.exitCode = verdict.exitCode)
    (notRejected : ∀ policy report, verdict ≠ .rejected policy report)
    (notAccepted : ∀ document, verdict ≠ .accepted document) :
    EndTogether disk verdict validating generating patching :=
  ⟨_, _, _, ends_of_error lines.validates validates,
    ends_of_error lines.generates fun verbose => others _ verbose .generate,
    ends_of_error lines.patches fun verbose => others _ verbose .patch,
    { validates := sameCode
      generates := sameCode
      edits := sameCode
      rejects := fun policy report isRejected => absurd isRejected (notRejected policy report)
      accepts := fun document isAccepted => absurd isAccepted (notAccepted document) }⟩

theorem endTogether_of_no_settings
    (lines : Lines config path patchesPath validating generating patching)
    (noSettings : disk.settings? config = none) :
    EndTogether disk .unreadable validating generating patching := by
  obtain ⟨message, fails⟩ := loadConfig_of_no_settings noSettings
  exact lines.endTogether_of_failure (fun _ => attempt_of_config_error fails)
    (fun _ _ _ => attempt_of_config_error fails) rfl (fun _ _ => nofun) fun _ => nofun

/-- A document that is not read fails all three lines in the same way. -/
theorem endTogether_of_not_read
    (lines : Lines config path patchesPath validating generating patching)
    (isSettings : disk.settings? config = some settings) {failure : Failure} {verdict : Verdict}
    (fails : (readJson path).onDisk disk = (.error failure, disk))
    (sameCode : failure.outcome.exitCode = verdict.exitCode)
    (notRejected : ∀ policy report, verdict ≠ .rejected policy report)
    (notAccepted : ∀ document, verdict ≠ .accepted document) :
    EndTogether disk verdict validating generating patching := by
  have notLoaded : (loadDocument settings path).onDisk disk = (.error failure, disk) :=
    onDisk_bind_of_error fails
  exact lines.endTogether_of_failure (fun _ => attempt_validate_of_unread isSettings fails)
    (fun _ _ needs => attempt_of_not_loaded needs isSettings notLoaded)
    sameCode notRejected notAccepted

theorem endTogether_of_accepted
    (lines : Lines config path patchesPath validating generating patching)
    (isSettings : disk.settings? config = some settings)
    (reads : (readJson path).onDisk disk = (.ok value, disk)) (ordered : value.Ordered)
    (holds : disk.HoldsNoPatch patchesPath) {document : Document}
    (accepted : Check.validate settings.policy value = .ok document) :
    EndTogether disk (.accepted document) validating generating patching := by
  have loads := loadDocument_of_validate reads accepted
  have valid := (Check.validate_eq_ok_iff ordered).mp ⟨document, accepted⟩
  refine ⟨_, _, _, ends_of_ok lines.validates fun _ => attempt_validate isSettings reads,
    ends_of_ok lines.generates fun _ => attempt_generate isSettings loads,
    ends_of_ok lines.patches fun _ => attempt_patch isSettings loads holds, ?_⟩
  exact {
    validates := if_pos valid
    generates := rfl
    edits := rfl
    rejects := fun _ _ => nofun
    accepts := fun other isAccepted => by
      obtain rfl : document = other := Verdict.accepted.inj isAccepted
      rfl }

theorem endTogether_of_rejected
    (lines : Lines config path patchesPath validating generating patching)
    (isSettings : disk.settings? config = some settings)
    (reads : (readJson path).onDisk disk = (.ok value, disk)) (ordered : value.Ordered)
    {rejection : Rejection} (refused : Check.validate settings.policy value = .error rejection) :
    EndTogether disk (.rejected settings.policy (Check.report settings.policy value))
      validating generating patching := by
  let report := Check.report settings.policy value
  have invalid : report.valid ≠ true := by
    rw [Ne, ← Check.validate_eq_ok_iff ordered, refused]
    exact nofun
  have named : (Failure.refusedFor rejection).outcome.violations? =
      some (report.violations.filter settings.policy.blocks) := by
    rw [Failure.violations?_refusedFor, Check.violations_of_rejection ordered refused]
  have fails : ∀ command verbose, Loads path patchesPath command →
      (attempt ⟨command, config, verbose⟩).onDisk disk =
        (.error (.refusedFor rejection), disk) :=
    fun _ _ needs =>
      attempt_of_not_loaded needs isSettings (loadDocument_of_validate reads refused)
  refine ⟨_, _, _, ends_of_ok lines.validates fun _ => attempt_validate isSettings reads,
    ends_of_error lines.generates fun verbose => fails _ verbose .generate,
    ends_of_error lines.patches fun verbose => fails _ verbose .patch, ?_⟩
  exact {
    validates := if_neg invalid
    generates := rfl
    edits := rfl
    rejects := fun policy other isRejected => by
      obtain ⟨rfl, rfl⟩ := Verdict.rejected.inj isRejected
      exact ⟨report?_of_prints rfl, named, named⟩
    accepts := fun _ => nofun }

theorem endTogether_of_value
    (lines : Lines config path patchesPath validating generating patching)
    (isSettings : disk.settings? config = some settings)
    (reads : (readJson path).onDisk disk = (.ok value, disk)) (ordered : value.Ordered)
    (holds : disk.HoldsNoPatch patchesPath) :
    EndTogether disk (.ofValue settings.policy value) validating generating patching := by
  unfold Verdict.ofValue
  cases validates : Check.validate settings.policy value with
  | ok document => exact lines.endTogether_of_accepted isSettings reads ordered holds validates
  | error rejection => exact lines.endTogether_of_rejected isSettings reads ordered validates

end Lines

/-- Whatever the disk holds, and under whatever settings, the three commands end as the
one verdict on the document says. -/
theorem end_together_at_gate
    (lines : Lines config path patchesPath validating generating patching)
    (holds : disk.HoldsNoPatch patchesPath) :
    EndTogether disk (disk.judge config path) validating generating patching := by
  unfold Disk.judge
  cases isSettings : disk.settings? config with
  | none => exact lines.endTogether_of_no_settings isSettings
  | some settings =>
      cases reads : disk.readText path with
      | error error =>
          obtain ⟨message, fails⟩ := readJson_of_unread reads
          exact lines.endTogether_of_not_read isSettings fails rfl (fun _ _ => nofun)
            fun _ => nofun
      | ok text =>
          change EndTogether disk (.ofText settings.policy text) _ _ _
          unfold Verdict.ofText
          cases parses : parse text with
          | error fault =>
              obtain ⟨message, fails⟩ := readJson_of_fault reads parses
              exact lines.endTogether_of_not_read isSettings fails rfl (fun _ _ => nofun)
                fun _ => nofun
          | ok value =>
              exact lines.endTogether_of_value isSettings (readJson_of_parse reads parses)
                (parsed_of_parse parses).ordered holds

end Gate

/-! ### A document that the settings refuse -/

namespace Desk

def strictSettings : String := "\x7b\"validation\":\x7b\"policy\":\"strict\"\x7d\x7d"

/-- Strict settings, a document whose nodes share an id, and no patch. -/
def strictDisk : Disk where
  workingDirectory := []
  entries := [(["c"], .file strictSettings.toUTF8),
    (["d"], .file Check.twins.pretty.toUTF8), (["p"], .file "[]".toUTF8)]

theorem settings_strictDisk : strictDisk.settings? (some "c") = some ⟨.strict, .next⟩ := by
  have reads : strictDisk.readText "c" = .ok strictSettings :=
    Disk.readText_of_entryAt? rfl rfl rfl
  rw [Disk.settings?, reads, Except.toOption, Option.bind_some]
  decide +kernel

theorem judge_strictDisk : strictDisk.judge (some "c") "d" =
    .rejected .strict (Check.report .strict Check.twins) := by
  have reads : strictDisk.readText "d" = .ok Check.twins.pretty :=
    Disk.readText_of_entryAt? rfl rfl rfl
  have parses : parse Check.twins.pretty = .ok Check.twins := by
    rw [parse_pretty (by decide), Value.sortKeys_of_ordered Check.ordered_twins]
  have refused : Check.validate .strict Check.twins = .error _ :=
    Check.validate_of_not_valid (by decide)
  rw [Disk.judge, settings_strictDisk, reads]
  change Verdict.ofText .strict Check.twins.pretty = _
  rw [Verdict.ofText, parses]
  change Verdict.ofValue .strict Check.twins = _
  rw [Verdict.ofValue, refused]

theorem lines_strict : Lines (some "c") "d" "p" ["validate", "-c", "c", "d"]
    ["generate", "-c", "c", "d"] ["patch", "-c", "c", "d", "-p", "p"] where
  validates := ⟨false, rfl⟩
  generates := ⟨false, rfl⟩
  patches := ⟨false, rfl⟩

/-- The three commands refuse the document for the id that its nodes share. -/
theorem end_together_strict :
    EndTogether strictDisk (.rejected .strict (Check.report .strict Check.twins))
      ["validate", "-c", "c", "d"] ["generate", "-c", "c", "d"]
      ["patch", "-c", "c", "d", "-p", "p"] := by
  have parses : parse (Value.array []).pretty = .ok (Value.array []).sortKeys :=
    parse_pretty (by decide)
  have holds : strictDisk.HoldsNoPatch "p" :=
    ⟨"[]", Disk.readText_of_entryAt? rfl rfl rfl, parses⟩
  rw [← judge_strictDisk]
  exact end_together_at_gate lines_strict holds

end Desk

end Wireframe.Command
