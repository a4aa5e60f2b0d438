import Wireframe.Command.Arguments
import Wireframe.Bundle.Framework

/-!
Contract: what plainly spelled command lines are read as.

Owns:
- `Spells`, arguments that spell a command which is carried out with the usual
  settings;
- `Usable`, an argument that is read as a path wherever it stands;
- the command lines that spell `patch`, and for any path those that spell `validate`
  and `generate`.

There are many other spellings: options may be given by letters, with their values
attached, and in any order.
-/

namespace Wireframe.Command

/-- Arguments that spell a command and name no file of settings. -/
def Spells (arguments : List String) (command : Command) : Prop :=
  ∃ verbose, Invocation.parse arguments = .ok ⟨command, none, verbose⟩

/-- An argument that is read as options: it starts with a hyphen and goes on. -/
def IsOption (argument : String) : Prop :=
  ∃ first chars, argument.toList = '-' :: first :: chars

/-- An argument that is read as a path wherever it stands. -/
structure Usable (argument : String) : Prop where
  notEmpty : argument.isEmpty = false
  plain : ¬ IsOption argument

theorem usable_of_head {argument : String} (notEmpty : argument.isEmpty = false)
    (noHyphen : argument.toList.head? ≠ some '-') : Usable argument where
  notEmpty := notEmpty
  plain := by
    rintro ⟨first, chars, isText⟩
    exact noHyphen (congrArg List.head? isText)

namespace Progress

variable {level : Level} {argument value : String} {slot next : Slot}
  {settled : List (Slot × String)} {given : Bool}

/-- A plain argument is the value of an option that waits for one, and the document
otherwise. -/
theorem give_of_plain {progress : Progress} (plain : ¬ IsOption argument)
    (goOn : progress.optionsEnded = false) :
    progress.give level argument =
      if progress.awaitsValue then
        .ok { progress with
          waiting := progress.waiting.map fun waiting => (waiting.1, some argument) }
      else progress.givePlain level argument := by
  unfold give
  rw [goOn, if_neg Bool.false_ne_true]
  split
  · exact absurd ⟨_, _, ‹_›⟩ plain
  · exact absurd ⟨_, _, ‹_›⟩ plain
  · exact absurd ⟨_, _, ‹_›⟩ plain
  · obtain ⟨settled, _ | ⟨slot, _ | value⟩, given, ended⟩ := progress <;> rfl

theorem give_value (plain : ¬ IsOption argument) :
    give level ⟨settled, some (slot, none), given, false⟩ argument =
      .ok ⟨settled, some (slot, some argument), given, false⟩ :=
  give_of_plain plain rfl

theorem give_document (plain : ¬ IsOption argument) (takes : level.takesDocument = true) :
    give level {} argument = .ok ⟨[], some (.document, some argument), true, false⟩ := by
  rw [give_of_plain plain rfl]
  change givePlain level {} argument = _
  rw [givePlain, takes]
  rfl

theorem settle_given {ended : Bool} (fresh : settled.lookup slot = none)
    (notEmpty : slot.isPath = true → value.isEmpty = false) :
    settle ⟨settled, some (slot, some value), given, ended⟩ =
      .ok ⟨(slot, value) :: settled, none, given, ended⟩ := by
  change store _ slot value = _
  unfold store
  have accepted : (slot.isPath && slot.takesValue && value.isEmpty) = false := by
    cases isPath : slot.isPath with
    | false => rfl
    | true => rw [notEmpty isPath, Bool.and_false]
  rw [fresh, accepted]
  rfl

/-- An option settles what was given before it. -/
theorem giveOption_of_given (fresh : settled.lookup slot = none)
    (notEmpty : slot.isPath = true → value.isEmpty = false) :
    giveOption ⟨settled, some (slot, some value), given, false⟩ next =
      .ok ⟨(slot, value) :: settled, some (next, none), given, false⟩ := by
  rw [giveOption, settle_given fresh notEmpty]
  rfl

end Progress

theorem foldlM_cons_of_ok {α β ε : Type} {step : β → α → Except ε β} {start next : β} {first : α}
    (steps : step start first = .ok next) (rest : List α) :
    (first :: rest).foldlM step start = rest.foldlM step next := by
  rw [List.foldlM_cons, steps]
  rfl

/-! ### Command lines -/

/-- The name of a command hands the rest of the line to the command. -/
theorem spells_of_foldlM {word : String} {name : CommandName} {arguments : List String}
    {command : Command} {last own : Progress} (isName : CommandName.ofText? word = some name)
    (notHelp : (word == "help") = false)
    (reads : arguments.foldlM (Progress.give (commandLevel name)) {} = .ok last)
    (settles : last.settle = .ok own) (finds : commandOf name own = .ok command)
    (usual : own.value? .config = none) : Spells (word :: arguments) command := by
  have parsed : parseCommand name arguments = .ok (command, own) := by
    unfold parseCommand
    rw [reads]
    change (do let progress ← last.settle; pure (← commandOf name progress, progress)) = _
    rw [settles]
    change (do pure (← commandOf name own, own)) = _
    rw [finds]
    rfl
  refine ⟨(own.value? .verbose).isSome, ?_⟩
  unfold Invocation.parse Invocation.parseFrom
  simp only [notHelp, isName, Bool.and_false]
  change (do
    let read ← parseCommand name arguments
    pure (Invocation.mk read.1 ((read.2.value? .config).or none)
      ((read.2.value? .verbose).isSome || false))) = _
  rw [parsed]
  change Except.ok _ = _
  rw [Option.or_none, Bool.or_false, usual]

section Lines

variable {path patchesPath out : String}

theorem spells_patch (usable : Usable path) (usablePatches : Usable patchesPath)
    (usableOut : Usable out) :
    Spells ["patch", path, "--patches", patchesPath, "--out", out]
      (.patch path patchesPath (some out)) := by
  have patches : Progress.give (commandLevel .patch)
      ⟨[], some (.document, some path), true, false⟩ "--patches" =
        .ok ⟨[(.document, path)], some (.patches, none), true, false⟩ :=
    Progress.giveOption_of_given rfl fun _ => usable.notEmpty
  have target : Progress.give (commandLevel .patch)
      ⟨[(.document, path)], some (.patches, some patchesPath), true, false⟩ "--out" =
        .ok ⟨[(.patches, patchesPath), (.document, path)], some (.out, none), true, false⟩ :=
    Progress.giveOption_of_given rfl fun _ => usablePatches.notEmpty
  have reads : [path, "--patches", patchesPath, "--out", out].foldlM
      (Progress.give (commandLevel .patch)) {} =
        .ok ⟨[(.patches, patchesPath), (.document, path)], some (.out, some out), true, false⟩ := by
    rw [foldlM_cons_of_ok (Progress.give_document usable.plain rfl), foldlM_cons_of_ok patches,
      foldlM_cons_of_ok (Progress.give_value usablePatches.plain), foldlM_cons_of_ok target,
      foldlM_cons_of_ok (Progress.give_value usableOut.plain)]
    rfl
  exact spells_of_foldlM rfl rfl reads
    (Progress.settle_given rfl fun _ => usableOut.notEmpty) rfl rfl

/-- Behind a double hyphen every argument is plain. -/
theorem spells_validate (notEmpty : path.isEmpty = false) :
    Spells ["validate", "--", path] (.validate path) := by
  have reads : ["--", path].foldlM (Progress.give (commandLevel .validate)) {} =
      .ok ⟨[], some (.document, some path), true, true⟩ := rfl
  exact spells_of_foldlM rfl rfl reads (Progress.settle_given rfl fun _ => notEmpty) rfl rfl

theorem spells_generate (notEmpty : path.isEmpty = false) :
    Spells ["generate", "--", path] (.generate path none none) := by
  have reads : ["--", path].foldlM (Progress.give (commandLevel .generate)) {} =
      .ok ⟨[], some (.document, some path), true, true⟩ := rfl
  exact spells_of_foldlM rfl rfl reads (Progress.settle_given rfl fun _ => notEmpty) rfl rfl

theorem spells_generate_framework (framework : Framework) (notEmpty : path.isEmpty = false) :
    Spells ["generate", "--framework", framework.name, "--", path]
      (.generate path (some framework.name) none) := by
  have reads : ["--framework", framework.name, "--", path].foldlM
      (Progress.give (commandLevel .generate)) {} =
        .ok ⟨[(.framework, framework.name)], some (.document, some path), true, true⟩ := by
    cases framework <;> rfl
  exact spells_of_foldlM rfl rfl reads (Progress.settle_given rfl fun _ => notEmpty) rfl rfl

end Lines

end Wireframe.Command
