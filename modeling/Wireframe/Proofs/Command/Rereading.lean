import Wireframe.Proofs.Command.Arguments
import Wireframe.Proofs.Command.Writing
import Wireframe.Proofs.Document.Reading

/-!
Contract: commands on a file that the command `patch` wrote.

Owns:
- what `patch` comes to, and what it leaves on the disk where it succeeds;
- `validate` and `generate` on such a file, which succeed where its document is not
  nested beyond the limit of the reader, and refuse the file otherwise;
- a page whose edit is read and whose edited form is not.

Does not own: the arguments that spell an invocation.
-/

namespace Wireframe.Command

open Json Attempt

namespace Disk

/-- The file at a path is accepted as a document. -/
def HoldsDocument (disk : Disk) (path : String) (document : Document) : Prop :=
  ∃ text, disk.readText path = .ok text ∧ Document.deserialize .lenient text = .ok document

/-- The file at a path is accepted as a list of patches. -/
def HoldsPatches (disk : Disk) (path : String) (patches : List Patch) : Prop :=
  ∃ text value, disk.readText path = .ok text ∧ parse text = .ok value ∧
    Check.validatePatches value = .ok patches

/-- A document that comes from a file, edited by the patches in another. -/
def HoldsPatched (disk : Disk) (path patchesPath : String) (patched : Document) : Prop :=
  ∃ document patches, disk.HoldsDocument path document ∧ disk.HoldsPatches patchesPath patches ∧
    document.patched patches = .ok patched

variable {disk : Disk} {path patchesPath : String}

theorem HoldsDocument.sound {document : Document} (holds : disk.HoldsDocument path document) :
    document.Sound := by
  obtain ⟨text, -, accepted⟩ := holds
  obtain ⟨value, parses, acceptedValue⟩ := Document.deserialize_eq_ok.mp accepted
  exact (Check.sound_of_validate (parsed_of_parse parses).ordered acceptedValue).2

theorem HoldsPatched.sound {patched : Document}
    (holds : disk.HoldsPatched path patchesPath patched) : patched.Sound := by
  obtain ⟨document, patches, holdsDocument, ⟨text, value, -, parses, acceptedAll⟩, edits⟩ := holds
  have accepted : ∀ patch ∈ (Edit.patched patches).patches, patch.Accepted :=
    fun patch isMember => .listed (parsed_of_parse parses).ordered acceptedAll isMember
  obtain ⟨layoutTree, soundTree, rfl⟩ := Edit.of_run holdsDocument.sound accepted edits
  exact { holdsDocument.sound with layoutTree := soundTree }

theorem HoldsPatched.unique {left right : Document}
    (holdsLeft : disk.HoldsPatched path patchesPath left)
    (holdsRight : disk.HoldsPatched path patchesPath right) : left = right := by
  obtain ⟨document, patches, ⟨text, reads, accepted⟩,
    ⟨patchesText, value, readsPatches, parses, acceptedPatches⟩, edits⟩ := holdsLeft
  obtain ⟨document', patches', ⟨text', reads', accepted'⟩,
    ⟨patchesText', value', readsPatches', parses', acceptedPatches'⟩, edits'⟩ := holdsRight
  obtain rfl := Except.ok.inj (reads.symm.trans reads')
  obtain rfl := Except.ok.inj (accepted.symm.trans accepted')
  obtain rfl := Except.ok.inj (readsPatches.symm.trans readsPatches')
  obtain rfl := Except.ok.inj (parses.symm.trans parses')
  obtain rfl := Except.ok.inj (acceptedPatches.symm.trans acceptedPatches')
  exact Except.ok.inj (edits.symm.trans edits')

end Disk

/-! ### The command that writes -/

/-- A successful `patch` leaves the text of the edited document. -/
theorem holdsPatched_of_run {disk after : Disk} {path patchesPath out : String} {verbose : Bool}
    {outcome : Outcome}
    (runs : (run ⟨.patch path patchesPath (some out), none, verbose⟩).runOn disk = (outcome, after))
    (succeeds : outcome.exitCode = 0) :
    ∃ patched, disk.HoldsPatched path patchesPath patched ∧
      after.readText out = .ok patched.serialize := by
  have attempted : (runPatch {} path patchesPath (some out)).onDisk disk = (.ok outcome, after) :=
    ok_of_exitCode_zero runs succeeds
  unfold runPatch at attempted
  obtain ⟨document, first, loads, goesOn⟩ := ok_of_onDisk_bind attempted
  obtain ⟨rfl, text, value, reads, parses, accepted⟩ := ok_of_loadDocument loads
  obtain ⟨patchesValue, second, readsPatches, validates⟩ := ok_of_onDisk_bind goesOn
  obtain ⟨rfl, patchesText, isText, parsesPatches⟩ := ok_of_readJson readsPatches
  obtain ⟨patches, third, passes, applies⟩ := ok_of_onDisk_bind validates
  obtain ⟨acceptedPatches, rfl⟩ := ok_of_onDisk_orFail passes
  obtain ⟨patched, fourth, succeedsToo, emits⟩ := ok_of_onDisk_bind applies
  obtain ⟨edits, rfl⟩ := ok_of_onDisk_orFail succeedsToo
  obtain ⟨⟨⟩, last, writes, ends⟩ := ok_of_onDisk_bind emits
  obtain ⟨location, puts⟩ := puts_of_writeFile writes
  obtain ⟨-, rfl⟩ := Prod.mk.inj ends
  have deserializes := Document.deserialize_eq_ok.mpr ⟨value, parses, accepted⟩
  refine ⟨patched, ⟨document, patches, ⟨text, reads, deserializes⟩, ?_, edits⟩, puts.readText⟩
  exact ⟨patchesText, patchesValue, isText, parsesPatches, acceptedPatches⟩

section Patching

variable {disk after : Disk} {path patchesPath : String} {document : Document}
  {patches : List Patch} {verbose : Bool}

/-- With what it reads accepted, `patch` is left with the edit and with writing its result. -/
theorem onDisk_runPatch_of_holds {out : Option String}
    (holdsDocument : disk.HoldsDocument path document)
    (holdsPatches : disk.HoldsPatches patchesPath patches) :
    (runPatch {} path patchesPath out).onDisk disk = onDisk (do
      let patched ← orFail (fun error => .refused error.message none) (document.patched patches)
      emit out patched.serialize) disk := by
  obtain ⟨text, reads, deserializes⟩ := holdsDocument
  obtain ⟨value, parses, accepted⟩ := Document.deserialize_eq_ok.mp deserializes
  obtain ⟨patchesText, patchesValue, readsPatches, parsesPatches, acceptedPatches⟩ := holdsPatches
  unfold runPatch
  rw [onDisk_bind_of_ok (loadDocument_of_parse reads parses accepted),
    onDisk_bind_of_ok (readJson_of_parse readsPatches parsesPatches), acceptedPatches,
    onDisk_bind_of_ok (onDisk_orFail_ok _ patches disk)]

/-- The edited document is written wherever it can be, however deep it is nested. -/
theorem run_patch_of_holds {out : String} {patched : Document}
    (holdsDocument : disk.HoldsDocument path document)
    (holdsPatches : disk.HoldsPatches patchesPath patches)
    (edits : document.patched patches = .ok patched)
    (writes : (writeFile out patched.serialize).onDisk disk = (.ok (), after)) :
    (run ⟨.patch path patchesPath (some out), none, verbose⟩).runOn disk = (⟨0, ""⟩, after) := by
  apply runOn_run_of_ok
  change (runPatch {} path patchesPath (some out)).onDisk disk = _
  rw [onDisk_runPatch_of_holds holdsDocument holdsPatches, edits,
    onDisk_bind_of_ok (onDisk_orFail_ok _ patched disk)]
  exact onDisk_bind_of_ok writes

/-- Patches that do not apply are refused. -/
theorem run_patch_of_error {out : Option String} {error : PatchError}
    (holdsDocument : disk.HoldsDocument path document)
    (holdsPatches : disk.HoldsPatches patchesPath patches)
    (fails : document.patched patches = .error error) :
    ((run ⟨.patch path patchesPath out, none, verbose⟩).runOn disk).1.exitCode = exitRefused := by
  have attempted : (attempt ⟨.patch path patchesPath out, none, verbose⟩).onDisk disk =
      (.error (.refused error.message none), disk) := by
    change (runPatch {} path patchesPath out).onDisk disk = _
    rw [onDisk_runPatch_of_holds holdsDocument holdsPatches, fails]
    rfl
  rw [runOn_run_of_error attempted]
  rfl

end Patching

/-! ### The commands that read -/

/-- Whether a document, as it is written, is nested within the limit of the reader. -/
def Fits (document : Document) : Prop :=
  (Document.codec.encode document).depth ≤ nestingLimit

instance (document : Document) : Decidable (Fits document) :=
  inferInstanceAs (Decidable (_ ≤ _))

/-- The outcome of printing a report. -/
def printedReport (document : Document) : Outcome :=
  printed (Report.codec.encode (Check.report .lenient document.toValue)).pretty

/-- The outcome of printing a bundle. -/
def printedBundle (document : Document) (framework : Framework) : Outcome :=
  printed (CodeBundle.codec.encode (document.generate ⟨framework⟩)).pretty

section Reading

variable {disk : Disk} {path : String} {document : Document} {verbose : Bool}

theorem run_validate_of_fits (reads : disk.readText path = .ok document.serialize)
    (sound : document.Sound) (fits : Fits document) :
    (run ⟨.validate path, none, verbose⟩).runOn disk = (printedReport document, disk) := by
  apply runOn_run_of_ok
  change (runValidate {} path).onDisk disk = _
  unfold runValidate
  rw [onDisk_bind_of_ok (readJson_of_parse reads (Document.parse_serialize fits))]
  change (Except.ok (⟨if (Check.report .lenient document.toValue).valid then 0 else exitRefused,
    _⟩ : Outcome), disk) = _
  rw [sound.valid_toValue]
  rfl

theorem run_generate_of_fits (reads : disk.readText path = .ok document.serialize)
    (sound : document.Sound) (fits : Fits document) {name : Option String}
    {framework : Framework}
    (names : (generateOptions {} name).onDisk disk = (.ok ⟨framework⟩, disk)) :
    (run ⟨.generate path name none, none, verbose⟩).runOn disk =
      (printedBundle document framework, disk) := by
  apply runOn_run_of_ok
  change (runGenerate {} path name none).onDisk disk = _
  have loads := loadDocument_of_parse reads (Document.parse_serialize fits) sound.validate_toValue
  unfold runGenerate
  rw [onDisk_bind_of_ok names, onDisk_bind_of_ok loads]
  rfl

theorem run_validate_of_not_fits (reads : disk.readText path = .ok document.serialize)
    (sound : document.Sound) (tooDeep : ¬ Fits document) :
    ((run ⟨.validate path, none, verbose⟩).runOn disk).1.exitCode = exitRefused := by
  obtain ⟨failure, fails⟩ := sound.parse_serialize_fails tooDeep
  obtain ⟨message, refuses⟩ := readJson_of_fault reads fails
  have attempted : (attempt ⟨.validate path, none, verbose⟩).onDisk disk =
      (.error (.refused message none), disk) := by
    change (runValidate {} path).onDisk disk = _
    unfold runValidate
    exact onDisk_bind_of_error refuses
  rw [runOn_run_of_error attempted]
  rfl

theorem run_generate_of_not_fits (reads : disk.readText path = .ok document.serialize)
    (sound : document.Sound) (tooDeep : ¬ Fits document) {name : Option String}
    {framework : Framework}
    (names : (generateOptions {} name).onDisk disk = (.ok ⟨framework⟩, disk)) :
    ((run ⟨.generate path name none, none, verbose⟩).runOn disk).1.exitCode = exitRefused := by
  obtain ⟨failure, fails⟩ := sound.parse_serialize_fails tooDeep
  obtain ⟨message, refuses⟩ := loadDocument_of_fault reads fails
  have attempted : (attempt ⟨.generate path name none, none, verbose⟩).onDisk disk =
      (.error (.refused message none), disk) := by
    change (runGenerate {} path name none).onDisk disk = _
    unfold runGenerate
    rw [onDisk_bind_of_ok names, onDisk_bind_of_error refuses]
  rw [runOn_run_of_error attempted]
  rfl

/-- A framework that is named counts. -/
theorem generateOptions_name (framework : Framework) (disk : Disk) :
    (generateOptions {} (some framework.name)).onDisk disk = (.ok ⟨framework⟩, disk) := by
  cases framework <;> rfl

end Reading

/-! ### What was written, read again -/

theorem program_of_parse {arguments : List String} {invocation : Invocation}
    (parses : Invocation.parse arguments = .ok invocation) :
    program arguments = run invocation := by
  unfold program
  rw [parses]

namespace Disk

variable {disk : Disk}

/-- A command can be spelled, and however it is spelled, it ends so and leaves the disk
as it is. -/
structure Answers (disk : Disk) (command : Command) (outcome : Outcome) : Prop where
  spelled : ∃ arguments, Spells arguments command
  answers : ∀ arguments, Spells arguments command →
    (program arguments).runOn disk = (outcome, disk)

/-- A command can be spelled, and however it is spelled, it refuses its input. -/
structure Refuses (disk : Disk) (command : Command) : Prop where
  spelled : ∃ arguments, Spells arguments command
  refuses : ∀ arguments, Spells arguments command →
    ((program arguments).runOn disk).1.exitCode = exitRefused

section Spelled

variable {command : Command} {arguments : List String} {outcome : Outcome}

theorem Answers.of_run (spelled : Spells arguments command)
    (runs : ∀ verbose, (run ⟨command, none, verbose⟩).runOn disk = (outcome, disk)) :
    disk.Answers command outcome where
  spelled := ⟨arguments, spelled⟩
  answers := by
    rintro others ⟨verbose, parses⟩
    rw [program_of_parse parses, runs verbose]

theorem Refuses.of_run (spelled : Spells arguments command)
    (runs : ∀ verbose,
      ((run ⟨command, none, verbose⟩).runOn disk).1.exitCode = exitRefused) :
    disk.Refuses command where
  spelled := ⟨arguments, spelled⟩
  refuses := by
    rintro others ⟨verbose, parses⟩
    rw [program_of_parse parses, runs verbose]

end Spelled

/-- What the commands that read a document make of a file that holds the text of one. -/
structure Rereads (disk : Disk) (path : String) (document : Document) : Prop where
  validates : Fits document → disk.Answers (.validate path) (printedReport document)
  generates : Fits document → ∀ framework : Framework,
    disk.Answers (.generate path (some framework.name) none) (printedBundle document framework)
  generatesUsual : Fits document →
    disk.Answers (.generate path none none) (printedBundle document .next)
  refusesValidation : ¬ Fits document → disk.Refuses (.validate path)
  refusesGeneration : ¬ Fits document → ∀ framework : Framework,
    disk.Refuses (.generate path (some framework.name) none)
  refusesUsual : ¬ Fits document → disk.Refuses (.generate path none none)

end Disk

theorem rereads_of_sound {disk : Disk} {path : String} {document : Document}
    (reads : disk.readText path = .ok document.serialize) (sound : document.Sound) :
    disk.Rereads path document :=
  have notEmpty := Disk.notEmpty_of_readText reads
  have spelled := spells_validate notEmpty
  have spelledFor := fun framework => spells_generate_framework framework notEmpty
  have spelledUsual := spells_generate notEmpty
  { validates := fun fits =>
      .of_run spelled fun _ => run_validate_of_fits reads sound fits
    generates := fun fits framework =>
      .of_run (spelledFor framework) fun _ =>
        run_generate_of_fits reads sound fits (generateOptions_name framework disk)
    generatesUsual := fun fits =>
      .of_run spelledUsual fun _ => run_generate_of_fits reads sound fits rfl
    refusesValidation := fun tooDeep =>
      .of_run spelled fun _ => run_validate_of_not_fits reads sound tooDeep
    refusesGeneration := fun tooDeep framework =>
      .of_run (spelledFor framework) fun _ =>
        run_generate_of_not_fits reads sound tooDeep (generateOptions_name framework disk)
    refusesUsual := fun tooDeep =>
      .of_run spelledUsual fun _ => run_generate_of_not_fits reads sound tooDeep rfl }

/-- Whenever `patch` ends well, the file that it wrote holds the edited document. The
other commands accept it, and generate what the document generates, exactly where it is
nested within the limit of the reader; edits may nest it deeper, and then its own program
refuses the file. -/
theorem rereads_patched {disk after : Disk} {arguments : List String}
    {path patchesPath out : String} {outcome : Outcome}
    (spells : Spells arguments (.patch path patchesPath (some out)))
    (runs : (program arguments).runOn disk = (outcome, after))
    (succeeds : outcome.exitCode = 0) :
    ∃ patched, disk.HoldsPatched path patchesPath patched ∧ after.Rereads out patched := by
  obtain ⟨verbose, parses⟩ := spells
  rw [program_of_parse parses] at runs
  obtain ⟨patched, holds, reads⟩ := holdsPatched_of_run runs succeeds
  exact ⟨patched, holds, rereads_of_sound reads holds.sound⟩

/-! ### A page, and edits of any depth -/

namespace Desk

/-- A page with a text on it. -/
def page : Value :=
  .object [("id", .string "d"),
    ("layoutTree", .object [
      ("children", .array [.object [("id", .string "c"), ("type", .string "text")]]),
      ("id", .string "r"), ("type", .string "page")])]

/-- Lists inside one another. -/
def nested : Nat → Value
  | 0 => .array []
  | count + 1 => .array [nested count]

/-- Gives the text a state that is nested. -/
def deepening (count : Nat) : Value :=
  .array [.object [("op", .string "update"),
    ("payload", .object [("state", .object [("initialValue", nested count)])]),
    ("targetId", .string "c")]]

/-- A disk with the page at `d` and the edit at `p`. -/
def disk (count : Nat) : Disk where
  workingDirectory := []
  entries := [(["d"], .file page.pretty.toUTF8), (["p"], .file (deepening count).pretty.toUTF8)]

/-- What the edit makes of the page. -/
def edited (count : Nat) : Option Document :=
  (Check.validate .lenient page).toOption.bind fun document =>
    (Check.validatePatches (deepening count)).toOption.bind fun patches =>
      (document.patched patches).toOption

def patching : List String := ["patch", "d", "--patches", "p", "--out", "f"]

variable {count : Nat}

theorem ordered_nested : (nested count).Ordered := by
  induction count with
  | zero => trivial
  | succ count inductionHypothesis => simpa [nested] using inductionHypothesis

theorem depth_nested : (nested count).depth = count + 1 := by
  induction count with
  | zero => rfl
  | succ count inductionHypothesis =>
      simp [nested, Value.depth, Value.itemDepth, inductionHypothesis]

theorem parse_deepening (readable : count ≤ 122) :
    parse (deepening count).pretty = .ok (deepening count) := by
  have depth : (deepening count).depth = count + 5 := by
    simp [deepening, Value.depth, Value.itemDepth, Value.memberDepth, depth_nested]
  have ordered : (deepening count).Ordered := by
    simp only [deepening, Value.ascending_iff_keys, Value.Ordered, Value.OrderedItems,
      Value.OrderedMembers, List.map, ordered_nested]
    decide
  rw [parse_pretty (depth.trans_le (Nat.add_le_add_right readable 5)),
    Value.sortKeys_of_ordered ordered]

theorem ok_of_toOption {ε α : Type} {result : Except ε α} {value : α}
    (isValue : result.toOption = some value) : result = .ok value := by
  cases result with
  | error error => exact absurd isValue nofun
  | ok other => exact congrArg Except.ok (Option.some.inj isValue)

theorem holdsDocument_page {holder : Disk} {document : Document}
    (reads : holder.readText "d" = .ok page.pretty)
    (accepted : Check.validate .lenient page = .ok document) :
    holder.HoldsDocument "d" document :=
  ⟨page.pretty, reads,
    Document.deserialize_eq_ok.mpr ⟨page, parse_pretty (by decide), accepted⟩⟩

theorem holdsPatches_deepening {patches : List Patch} (readable : count ≤ 122)
    (accepted : Check.validatePatches (deepening count) = .ok patches) :
    (disk count).HoldsPatches "p" patches :=
  ⟨(deepening count).pretty, deepening count, Disk.readText_of_entryAt? rfl rfl rfl,
    parse_deepening readable, accepted⟩

theorem run_patching {patched : Document} (readable : count ≤ 122)
    (edits : edited count = some patched) :
    ∃ after, (program patching).runOn (disk count) = (⟨0, ""⟩, after) ∧
      (disk count).HoldsPatched "d" "p" patched ∧
      after.readText "f" = .ok patched.serialize := by
  obtain ⟨document, accepted, edits⟩ := Option.bind_eq_some_iff.mp edits
  obtain ⟨patches, acceptedPatches, edits⟩ := Option.bind_eq_some_iff.mp edits
  have edits := ok_of_toOption edits
  have reads : (disk count).readText "d" = .ok page.pretty :=
    Disk.readText_of_entryAt? rfl rfl rfl
  have holdsDocument := holdsDocument_page reads (ok_of_toOption accepted)
  have holdsPatches := holdsPatches_deepening readable (ok_of_toOption acceptedPatches)
  exact ⟨_, run_patch_of_holds holdsDocument holdsPatches edits rfl,
    ⟨document, patches, holdsDocument, holdsPatches, edits⟩,
    Disk.readText_of_entryAt? rfl rfl rfl⟩

theorem spells_patching : Spells patching (.patch "d" "p" (some "f")) :=
  spells_patch (usable_of_head rfl (by decide)) (usable_of_head rfl (by decide))
    (usable_of_head rfl (by decide))

theorem rereads_patched_shallow :
    ∃ patched after, (program patching).runOn (disk 0) = (⟨0, ""⟩, after) ∧
      (disk 0).HoldsPatched "d" "p" patched ∧ after.Rereads "f" patched ∧
      after.Answers (.validate "f") (printedReport patched) := by
  obtain ⟨patched, edits, fits⟩ : ∃ patched, edited 0 = some patched ∧ Fits patched := by
    have fits : (edited 0).map (fun patched => decide (Fits patched)) = some true := by
      decide +kernel
    obtain ⟨patched, edits, fits⟩ := Option.map_eq_some_iff.mp fits
    exact ⟨patched, edits, of_decide_eq_true fits⟩
  obtain ⟨after, runs, holds, -⟩ := run_patching (by decide) edits
  obtain ⟨other, holdsOther, rereads⟩ := rereads_patched spells_patching runs rfl
  obtain rfl := holdsOther.unique holds
  exact ⟨other, after, runs, holds, rereads, rereads.validates fits⟩

/-- The state is read at the limit of nesting and written beyond it. -/
theorem refuses_patched_deep :
    ∃ after, (program patching).runOn (disk 122) = (⟨0, ""⟩, after) ∧
      after.Refuses (.validate "f") ∧ after.Refuses (.generate "f" none none) := by
  obtain ⟨patched, edits, tooDeep⟩ : ∃ patched, edited 122 = some patched ∧ ¬ Fits patched := by
    have tooDeep : (edited 122).map (fun patched => decide (Fits patched)) = some false := by
      decide +kernel
    obtain ⟨patched, edits, tooDeep⟩ := Option.map_eq_some_iff.mp tooDeep
    exact ⟨patched, edits, of_decide_eq_false tooDeep⟩
  obtain ⟨after, runs, holds, reads⟩ := run_patching (by decide) edits
  have rereads := rereads_of_sound reads holds.sound
  exact ⟨after, runs, rereads.refusesValidation tooDeep, rereads.refusesUsual tooDeep⟩

end Desk

end Wireframe.Command
