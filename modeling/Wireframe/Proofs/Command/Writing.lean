import Wireframe.Proofs.Command.Attempt

/-!
Contract: how attempts to write files end.

Owns:
- `createDirectories`, which adds directories whatever its answer is;
- `Writes`, the two ends of writing one file;
- `WritesAll`, the run of a list of writes up to its end or to the first that fails.

Does not own: where the paths of the files lead.
-/

namespace Wireframe.Command

open Disk

variable {disk middle after : Disk} {path text : String} {result : Except Failure Unit}

/-! ### Directories above a file -/

namespace Task

/-- A directory that cannot be made leaves the disk as it is. -/
theorem addsDirectories_ensureDirectory (path : String) (disk : Disk) :
    disk.AddsDirectories ((ensureDirectory path).runOn disk).2 := by
  cases makes : disk.makeDirectory path with
  | error error =>
      have unchanged : ((ensureDirectory path).runOn disk).2 = disk := by
        simp only [ensureDirectory, runOn, changed, makes]
      rw [unchanged]
      exact .refl disk
  | ok after =>
      have made : ((ensureDirectory path).runOn disk).2 = after := by
        simp only [ensureDirectory, runOn, changed, makes]
      rw [made]
      exact addsDirectories_of_makeDirectory makes

theorem addsDirectories_within (bound : Nat) (path : String) (disk : Disk) :
    disk.AddsDirectories ((createDirectoriesWithin bound path).runOn disk).2 := by
  induction bound generalizing path disk with
  | zero => exact .refl disk
  | succ bound inductionHypothesis =>
      unfold createDirectoriesWithin
      split
      · exact .refl disk
      · rw [runOn_bind]
        have first := addsDirectories_ensureDirectory path disk
        obtain ⟨answer, middle, ensures⟩ :
            ∃ answer middle, (ensureDirectory path).runOn disk = (answer, middle) := ⟨_, _, rfl⟩
        rw [ensures] at first ⊢
        split
        · split
          · exact first
          · rename_i parent isParent
            rw [runOn_bind]
            have second := inductionHypothesis parent middle
            obtain ⟨answer, last, creates⟩ : ∃ answer last,
                (createDirectoriesWithin bound parent).runOn middle = (answer, last) :=
              ⟨_, _, rfl⟩
            rw [creates] at second ⊢
            cases answer with
            | error error => exact first.trans second
            | ok made =>
                exact (first.trans second).trans (addsDirectories_ensureDirectory path last)
        · exact first

theorem addsDirectories_createDirectories (path : String) (disk : Disk) :
    disk.AddsDirectories ((createDirectories path).runOn disk).2 :=
  addsDirectories_within _ path disk

end Task

/-! ### One file -/

/-- How the writing of a file ends. -/
inductive Writes (disk : Disk) (path text : String) : Except Failure Unit → Disk → Prop
  | written {location : Location} {after : Disk} :
      disk.Puts after path text location → Writes disk path text (.ok ()) after
  | unable {after : Disk} (message : String) :
      disk.AddsDirectories after → Writes disk path text (.error (.unable message)) after

theorem Writes.after_directories (adds : disk.AddsDirectories middle)
    (writes : Writes middle path text result after) : Writes disk path text result after := by
  cases writes with
  | written puts => exact .written (adds.puts puts)
  | unable message addsMore => exact .unable message (adds.trans addsMore)

namespace Attempt

theorem onDisk_lift {α : Type} (task : Task α) (disk : Disk) :
    onDisk (ExceptT.lift task) disk = (.ok (task.runOn disk).1, (task.runOn disk).2) := by
  change (task >>= (pure ∘ Except.ok)).runOn disk = _
  rw [Task.runOn_bind]
  rfl

/-- Without the directories above it. -/
theorem writes_writeText (describe : SystemError → String) (path text : String) (disk : Disk) :
    ∃ result after, onDisk (ExceptT.lift (Task.writeText path text .done) >>=
        orFail fun error => .unable (describe error)) disk = (result, after) ∧
      Writes disk path text result after := by
  cases writes : disk.writeText path text with
  | error error =>
      have asks : onDisk (ExceptT.lift (Task.writeText path text .done)) disk =
          (.ok (.error error), disk) := by
        rw [onDisk_lift]
        simp only [Task.runOn, changed, writes]
      exact ⟨_, _, onDisk_bind_of_ok asks, .unable _ (.refl disk)⟩
  | ok after =>
      have asks : onDisk (ExceptT.lift (Task.writeText path text .done)) disk =
          (.ok (.ok ()), after) := by
        rw [onDisk_lift]
        simp only [Task.runOn, changed, writes]
      obtain ⟨location, puts⟩ := puts_of_writeText writes
      exact ⟨_, _, onDisk_bind_of_ok asks, .written puts⟩

end Attempt

open Attempt

theorem writes_writeFile (path text : String) (disk : Disk) :
    ∃ result after, (writeFile path text).onDisk disk = (result, after) ∧
      Writes disk path text result after := by
  unfold writeFile
  cases Path.parent? path with
  | none => exact writes_writeText _ path text disk
  | some parent =>
      have adds := Task.addsDirectories_createDirectories parent disk
      obtain ⟨answer, middle, creates⟩ : ∃ answer middle,
          (Task.createDirectories parent).runOn disk = (answer, middle) := ⟨_, _, rfl⟩
      have asks := onDisk_lift (Task.createDirectories parent) disk
      rw [creates] at adds asks
      rw [onDisk_bind_of_ok asks]
      cases answer with
      | error error => exact ⟨_, _, rfl, .unable _ adds⟩
      | ok made =>
          obtain ⟨result, after, runs, writes⟩ := writes_writeText
            (fun error => s!"Failed to write {path}: {error.message}") path text middle
          exact ⟨result, after, runs, writes.after_directories adds⟩

theorem puts_of_writeFile (runs : (writeFile path text).onDisk disk = (.ok (), after)) :
    ∃ location, disk.Puts after path text location := by
  obtain ⟨result, last, alsoRuns, writes⟩ := writes_writeFile path text disk
  obtain ⟨rfl, rfl⟩ := Prod.mk.inj (alsoRuns.symm.trans runs)
  cases writes with
  | written puts => exact ⟨_, puts⟩

/-! ### A list of files -/

/-- How files are written into a directory: one after the other, and none after one that
cannot be written. -/
inductive WritesAll (directory : String) :
    Disk → List (String × String) → Except Failure Unit → Disk → Prop
  | nil {disk : Disk} : WritesAll directory disk [] (.ok ()) disk
  | written {disk middle after : Disk} {file : String × String}
      {rest : List (String × String)} {location : Location} {result : Except Failure Unit} :
      disk.Puts middle (Path.join directory file.1) file.2 location →
      WritesAll directory middle rest result after →
      WritesAll directory disk (file :: rest) result after
  | unable {disk after : Disk} {file : String × String} {rest : List (String × String)}
      (message : String) : disk.AddsDirectories after →
      WritesAll directory disk (file :: rest) (.error (.unable message)) after

theorem writesAll_writeFiles (directory : String) (files : List (String × String))
    (disk : Disk) :
    ∃ result after, (writeFiles directory files).onDisk disk = (result, after) ∧
      WritesAll directory disk files result after := by
  induction files generalizing disk with
  | nil => exact ⟨_, _, rfl, .nil⟩
  | cons file rest inductionHypothesis =>
      obtain ⟨path, text⟩ := file
      unfold writeFiles
      obtain ⟨result, middle, runs, writes⟩ :=
        writes_writeFile (Path.join directory path) text disk
      cases writes with
      | written puts =>
          rw [onDisk_bind_of_ok runs]
          obtain ⟨result, after, runsOn, writesOn⟩ := inductionHypothesis middle
          exact ⟨result, after, runsOn, .written puts writesOn⟩
      | unable message adds =>
          exact ⟨_, _, onDisk_bind_of_error runs, .unable message adds⟩

end Wireframe.Command
