import Wireframe.Proofs.Command.Gate
import Wireframe.Proofs.Command.Path
import Wireframe.Proofs.Command.Refusals

/-!
Contract: what a generation leaves in its directory.

Owns:
- `Leaves`, the files of a list below a directory, and no other change to a file;
- a list of writes, which leaves a leading part of its files if it stops early;
- the ends of a generation: nothing, its whole bundle, or the first files of it;
- a directory in which one file cannot be written, and where those before it stay.

Does not own: the contents of a bundle.
-/

namespace Wireframe.Command

open Json Attempt

/-! ### Files below a directory -/

namespace Disk

variable {disk after : Disk} {location : Location} {directory : String}
  {files : List (String × String)}

theorem entryAt?_of_fileAt? {content : ByteArray} (holds : disk.fileAt? location = some content) :
    disk.entryAt? location = some (.file content) := by
  unfold fileAt? at holds
  split at holds
  · rename_i other stands
    rw [stands, Option.some.inj holds]
  · exact absurd holds nofun

/-- The files of a list are below a directory, and no other file has changed. -/
structure Leaves (disk after : Disk) (directory : String) (files : List (String × String)) :
    Prop extends disk.Keeps after where
  written : ∀ file ∈ files, after.readText (Path.join directory file.1) = .ok file.2
  others : ∀ location,
    (∀ file ∈ files, after.resolve (Path.join directory file.1) ≠ .ok location) →
    after.fileAt? location = disk.fileAt? location

theorem AddsDirectories.leaves (adds : disk.AddsDirectories after) :
    disk.Leaves after directory [] where
  toKeeps := adds.toKeeps
  written _ isMember := absurd isMember List.not_mem_nil
  others location _ := adds.files location

end Disk

/-- Plain paths, no two of which have the same segments. -/
structure PlainPaths (paths : List String) : Prop where
  plain : ∀ path ∈ paths, Path.IsPlain path
  distinct : paths.Pairwise fun left right => Path.segments left ≠ Path.segments right

theorem PlainPaths.sublist {paths others : List String} (plain : PlainPaths others)
    (within : paths.Sublist others) : PlainPaths paths :=
  ⟨fun path isMember => plain.plain path (within.subset isMember), plain.distinct.sublist within⟩

section Writing

variable {disk middle after : Disk} {directory : String} {location : Location}
  {file : String × String} {files done : List (String × String)}

/-- What is written later leaves a file as it is, since it goes elsewhere. -/
theorem Disk.Leaves.cons (plain : PlainPaths ((file :: done).map Prod.fst))
    (puts : disk.Puts middle (Path.join directory file.1) file.2 location)
    (leaves : middle.Leaves after directory done) :
    disk.Leaves after directory (file :: done) := by
  have resolves := leaves.toKeeps.resolve puts.resolves
  have elsewhere : ∀ other ∈ done,
      after.resolve (Path.join directory other.1) ≠ .ok location := by
    intro other isMember leads
    have isPath := List.mem_map_of_mem (f := Prod.fst) isMember
    have same := Disk.segments_eq_of_resolve_join (plain.plain file.1 List.mem_cons_self)
      (plain.plain other.1 (List.mem_cons_of_mem file.1 isPath)) resolves leads
    exact (List.pairwise_cons.mp plain.distinct).1 other.1 isPath same
  have holds : after.fileAt? location = some file.2.toUTF8 := by
    rw [leaves.others location elsewhere, Disk.fileAt?, puts.stands]
  refine ⟨puts.toKeeps.trans leaves.toKeeps, ?_, ?_⟩
  · rw [List.forall_mem_cons]
    exact ⟨Disk.readText_of_entryAt? puts.noSlash resolves (Disk.entryAt?_of_fileAt? holds),
      leaves.written⟩
  · intro other leadsNowhere
    rw [List.forall_mem_cons] at leadsNowhere
    have different : other ≠ location := by
      rintro rfl
      exact leadsNowhere.1 resolves
    rw [leaves.others other leadsNowhere.2]
    exact puts.others other different

/-- Writing a list of files leaves all of them, or those before the first that cannot be
written. -/
theorem WritesAll.leaves {result : Except Failure Unit}
    (plain : PlainPaths (files.map Prod.fst))
    (writes : WritesAll directory disk files result after) :
    ∃ done rest, files = done ++ rest ∧ disk.Leaves after directory done ∧
      (result = .ok () ∧ rest = [] ∨
        ∃ message, result = .error (.unable message) ∧ rest ≠ []) := by
  induction writes with
  | nil => exact ⟨[], [], rfl, (Disk.AddsDirectories.refl _).leaves, .inl ⟨rfl, rfl⟩⟩
  | @written _ _ _ file rest _ _ puts _ inductionHypothesis =>
      have plainRest : PlainPaths (rest.map Prod.fst) :=
        plain.sublist (List.sublist_cons_self file.1 _)
      obtain ⟨done, left, rfl, leaves, ends⟩ := inductionHypothesis plainRest
      have plainDone : PlainPaths ((file :: done).map Prod.fst) :=
        plain.sublist (((List.sublist_append_left done left).cons_cons file).map Prod.fst)
      exact ⟨file :: done, left, rfl, leaves.cons plainDone puts, ends⟩
  | unable message adds =>
      exact ⟨[], _, rfl, adds.leaves, .inr ⟨message, rfl, List.cons_ne_nil _ _⟩⟩

end Writing

/-! ### Bundles -/

/-- The paths in a bundle are fixed for each framework. -/
theorem plainPaths_generate (document : Document) (options : GenerateOptions) :
    PlainPaths ((document.generate options).files.map Prod.fst) := by
  obtain ⟨framework⟩ := options
  cases framework with
  | next =>
      change PlainPaths ["app/globals.css", "app/layout.tsx", "app/page.tsx", "package.json",
        "postcss.config.js", "tailwind.config.js"]
      exact ⟨by decide, by decide⟩
  | react =>
      change PlainPaths ["index.html", "package.json", "src/App.tsx", "src/main.tsx"]
      exact ⟨by decide, by decide⟩

namespace Disk

/-- The framework that a generation is for: the one that is named, or that of the
settings. -/
def frameworkFor? (settings : Config) : Option String → Option Framework
  | none => some settings.framework
  | some name => (Framework.ofName name).toOption

/-- The bundle of the document at a path, under the settings in a file, if all are
accepted. -/
def Bundles (disk : Disk) (config : Option String) (path : String) (framework : Option String)
    (bundle : CodeBundle) : Prop :=
  ∃ settings chosen document, disk.settings? config = some settings ∧
    frameworkFor? settings framework = some chosen ∧
    disk.judge config path = .accepted document ∧ bundle = document.generate ⟨chosen⟩

end Disk

section Generation

variable {disk after : Disk} {config framework : Option String} {settings : Config}
  {path directory : String} {document : Document} {options : GenerateOptions}

theorem settings_of_loadConfig (loads : (loadConfig config).onDisk disk = (.ok settings, disk)) :
    disk.settings? config = some settings := by
  cases isSettings : disk.settings? config with
  | none =>
      obtain ⟨message, fails⟩ := loadConfig_of_no_settings isSettings
      exact absurd (congrArg Prod.fst (fails.symm.trans loads)) nofun
  | some other =>
      have same := (loadConfig_of_settings isSettings).symm.trans loads
      rw [Except.ok.inj (Prod.mk.inj same).1]

theorem framework_of_generateOptions
    (chooses : (generateOptions settings framework).onDisk disk = (.ok options, disk)) :
    Disk.frameworkFor? settings framework = some options.framework := by
  cases framework with
  | none =>
      obtain rfl : settings.generateOptions = options := Except.ok.inj (Prod.mk.inj chooses).1
      rfl
  | some name =>
      obtain ⟨chosen, after, names, rest⟩ := ok_of_onDisk_bind chooses
      obtain ⟨isNamed, rfl⟩ := ok_of_onDisk_orFail names
      obtain rfl : ⟨chosen⟩ = options := Except.ok.inj (Prod.mk.inj rest).1
      rw [Disk.frameworkFor?, isNamed]
      rfl

theorem judge_of_loadDocument (isSettings : disk.settings? config = some settings)
    (loads : (loadDocument settings path).onDisk disk = (.ok document, after)) :
    disk.judge config path = .accepted document := by
  obtain ⟨-, text, value, reads, parses, accepted⟩ := ok_of_loadDocument loads
  rw [Disk.judge, isSettings, reads]
  change Verdict.ofText settings.policy text = _
  rw [Verdict.ofText, parses]
  change Verdict.ofValue settings.policy value = _
  rw [Verdict.ofValue, accepted]

/-- A generation into a directory fails before it writes anything, or is left with writing
a bundle. -/
theorem attempt_generate_cases (verbose : Bool) :
    (∃ failure, (attempt ⟨.generate path framework (some directory), config, verbose⟩).onDisk
      disk = (.error failure, disk)) ∨
    ∃ bundle, disk.Bundles config path framework bundle ∧
      (attempt ⟨.generate path framework (some directory), config, verbose⟩).onDisk disk =
        onDisk (do
          writeFiles directory bundle.files
          pure (printed (bundleSummary bundle).pretty)) disk := by
  unfold attempt
  obtain ⟨loaded, loads⟩ := reads_loadConfig config disk
  cases loaded with
  | error failure => exact .inl ⟨failure, onDisk_bind_of_error loads⟩
  | ok settings =>
      rw [onDisk_bind_of_ok loads]
      change (∃ failure, (runGenerate settings path framework (some directory)).onDisk disk = _) ∨
        ∃ bundle, _ ∧ (runGenerate settings path framework (some directory)).onDisk disk = _
      unfold runGenerate
      obtain ⟨chosen, chooses⟩ := reads_generateOptions settings framework disk
      cases chosen with
      | error failure => exact .inl ⟨failure, onDisk_bind_of_error chooses⟩
      | ok options =>
          rw [onDisk_bind_of_ok chooses]
          obtain ⟨found, finds⟩ := reads_loadDocument settings path disk
          cases found with
          | error failure => exact .inl ⟨failure, onDisk_bind_of_error finds⟩
          | ok document =>
              have isSettings := settings_of_loadConfig loads
              refine .inr ⟨document.generate options, ?_, onDisk_bind_of_ok finds⟩
              exact ⟨settings, options.framework, document, isSettings,
                framework_of_generateOptions chooses, judge_of_loadDocument isSettings finds, rfl⟩

theorem Disk.Bundles.plainPaths {bundle : CodeBundle}
    (bundles : disk.Bundles config path framework bundle) :
    PlainPaths (bundle.files.map Prod.fst) := by
  obtain ⟨settings, chosen, document, -, -, -, rfl⟩ := bundles
  exact plainPaths_generate document ⟨chosen⟩

/-- A generation into a directory that fails before it has a bundle changes nothing. With
a bundle it leaves, below the directory, all files of it and succeeds, or else those before
the first that cannot be written; no other file changes. So the files that a failure comes
after are not taken back. -/
theorem generation_leaves_start {arguments : List String} {outcome : Outcome}
    (spells : SpellsUnder config arguments (.generate path framework (some directory)))
    (runs : (program arguments).runOn disk = (outcome, after)) :
    outcome.exitCode ≠ 0 ∧ after = disk ∨
      ∃ bundle done rest, disk.Bundles config path framework bundle ∧
        bundle.files = done ++ rest ∧ disk.Leaves after directory done ∧
        (outcome.exitCode = 0 ∧ rest = [] ∨ outcome.exitCode = exitUnable ∧ rest ≠ []) := by
  obtain ⟨verbose, parses⟩ := spells
  rw [program_of_parse parses] at runs
  rcases attempt_generate_cases verbose with ⟨failure, fails⟩ | ⟨bundle, bundles, goesOn⟩
  · rw [runOn_run_of_error fails] at runs
    obtain ⟨rfl, rfl⟩ := Prod.mk.inj runs
    exact .inl ⟨failure.exitCode_ne_zero, rfl⟩
  · obtain ⟨result, last, writes, ended⟩ := writesAll_writeFiles directory bundle.files disk
    obtain ⟨done, rest, isSplit, leaves, ends⟩ := ended.leaves bundles.plainPaths
    refine .inr ⟨bundle, done, rest, bundles, isSplit, ?_⟩
    rcases ends with ⟨rfl, isAll⟩ | ⟨message, rfl, isPart⟩
    · rw [onDisk_bind_of_ok writes] at goesOn
      rw [runOn_run_of_ok goesOn] at runs
      obtain ⟨rfl, rfl⟩ := Prod.mk.inj runs
      exact ⟨leaves, .inl ⟨rfl, isAll⟩⟩
    · rw [onDisk_bind_of_error writes] at goesOn
      rw [runOn_run_of_error goesOn] at runs
      obtain ⟨rfl, rfl⟩ := Prod.mk.inj runs
      exact ⟨leaves, .inr ⟨rfl, isPart⟩⟩

end Generation

/-! ### A directory in the place of a file -/

namespace Desk

/-- A page at `d`, and a directory that is not empty where a manifest would go. -/
def blockedDisk : Disk where
  workingDirectory := []
  entries := [(["d"], .file page.pretty.toUTF8), (["o"], .directory),
    (["o", "package.json"], .directory), (["o", "package.json", "x"], .file "".toUTF8)]

def generating : List String := ["generate", "d", "-f", "react", "-o", "o"]

theorem spells_generating :
    SpellsUnder none generating (.generate "d" (some "react") (some "o")) :=
  ⟨false, rfl⟩

def blocked : Failure :=
  .unable "Failed to write o/package.json: Is a directory (os error 21)"

/-- What is left when the manifest cannot be written: the host page comes before it. -/
def leftDisk (document : Document) : Disk :=
  blockedDisk.put ["o", "index.html"] (.file (Bundle.hostFile document).toUTF8)

theorem fileAt?_leftDisk (document : Document) :
    (leftDisk document).fileAt? ["o", "index.html"] =
      some (Bundle.hostFile document).toUTF8 := by
  rw [leftDisk, Disk.fileAt?, Disk.entryAt?_put_self (List.cons_ne_nil _ _)]

theorem writeFiles_blocked (document : Document) :
    (writeFiles "o" (document.generate ⟨.react⟩).files).onDisk blockedDisk =
      (.error blocked, leftDisk document) := by
  have first : (writeFile "o/index.html" (Bundle.hostFile document)).onDisk blockedDisk =
      (.ok (), leftDisk document) := rfl
  have second : (writeFile "o/package.json" (Bundle.manifestFile document .react)).onDisk
      (leftDisk document) = (.error blocked, leftDisk document) := rfl
  exact (onDisk_bind_of_ok first).trans (onDisk_bind_of_error second)

theorem run_generating :
    ∃ document, (program generating).runOn blockedDisk =
      (blocked.outcome, leftDisk document) := by
  have accepts : (Check.validate .lenient page).toOption.isSome = true := by decide +kernel
  obtain ⟨document, isDocument⟩ := Option.isSome_iff_exists.mp accepts
  have reads : blockedDisk.readText "d" = .ok page.pretty :=
    Disk.readText_of_entryAt? rfl rfl rfl
  have parses : parse page.pretty = .ok page := parse_pretty (by decide)
  have loads := loadDocument_of_parse reads parses (ok_of_toOption isDocument)
  have chooses : (generateOptions {} (some "react")).onDisk blockedDisk =
      (.ok ⟨.react⟩, blockedDisk) := generateOptions_name .react blockedDisk
  have attempted : (attempt ⟨.generate "d" (some "react") (some "o"), none, false⟩).onDisk
      blockedDisk = (.error blocked, leftDisk document) := by
    change (runGenerate {} "d" (some "react") (some "o")).onDisk blockedDisk = _
    unfold runGenerate
    rw [onDisk_bind_of_ok chooses, onDisk_bind_of_ok loads]
    exact onDisk_bind_of_error (writeFiles_blocked document)
  have parsed : Invocation.parse generating =
      .ok ⟨.generate "d" (some "react") (some "o"), none, false⟩ := rfl
  refine ⟨document, ?_⟩
  rw [program_of_parse parsed]
  exact runOn_run_of_error attempted

theorem generation_leaves_start_blocked :
    ∃ after bundle done rest, (program generating).runOn blockedDisk = (blocked.outcome, after) ∧
      blockedDisk.Bundles none "d" (some "react") bundle ∧ bundle.files = done ++ rest ∧
      blockedDisk.Leaves after "o" done ∧ rest ≠ [] := by
  obtain ⟨document, runs⟩ := run_generating
  rcases generation_leaves_start spells_generating runs with
    ⟨-, unchanged⟩ | ⟨bundle, done, rest, bundles, isSplit, leaves, ⟨succeeds, -⟩ | ⟨-, isPart⟩⟩
  · have stands := fileAt?_leftDisk document
    rw [unchanged] at stands
    exact absurd stands nofun
  · exact absurd succeeds blocked.exitCode_ne_zero
  · exact ⟨_, bundle, done, rest, runs, bundles, isSplit, leaves, isPart⟩

/-- The run fails because a file cannot be written, and a file that was not there is. -/
theorem generation_not_atomic :
    ∃ after, (program generating).runOn blockedDisk = (blocked.outcome, after) ∧
      blocked.outcome.exitCode = exitUnable ∧
      blockedDisk.fileAt? ["o", "index.html"] = none ∧
      (after.fileAt? ["o", "index.html"]).isSome := by
  obtain ⟨document, runs⟩ := run_generating
  refine ⟨_, runs, rfl, rfl, ?_⟩
  rw [fileAt?_leftDisk]
  rfl

end Desk

end Wireframe.Command
