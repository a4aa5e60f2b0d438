import Wireframe.Command.Run
import Wireframe.Proofs.Command.Disk

/-!
Contract: attempts on a disk, step by step.

Owns:
- sequences of tasks and of attempts, taken apart and put together;
- what reading data and loading a document come to;
- the outcome of an invocation from that of its attempt.
-/

namespace Wireframe.Command

open Json

section Task

variable {α β : Type}

theorem Task.runOn_bind (task : Task α) (next : α → Task β) (disk : Disk) :
    (task >>= next).runOn disk = (next (task.runOn disk).1).runOn (task.runOn disk).2 := by
  change (task.bind next).runOn disk = _
  induction task generalizing disk with
  | done value => rfl
  | readText path further inductionHypothesis => exact inductionHypothesis _ disk
  | makeDirectory path further inductionHypothesis => exact inductionHypothesis _ _
  | isDirectory path further inductionHypothesis => exact inductionHypothesis _ disk
  | writeText path text further inductionHypothesis => exact inductionHypothesis _ _

end Task

/-! ### Attempts -/

namespace Attempt

variable {α β ε : Type} {attempt : Attempt α} {next : α → Attempt β} {disk after : Disk}

/-- The result of an attempt on a disk, and the disk after it. -/
def onDisk (attempt : Attempt α) (disk : Disk) : Except Failure α × Disk :=
  attempt.run.runOn disk

theorem onDisk_bind_of_ok {value : α} (runs : attempt.onDisk disk = (.ok value, after)) :
    (attempt >>= next).onDisk disk = (next value).onDisk after := by
  unfold onDisk at runs ⊢
  rw [ExceptT.run_bind, Task.runOn_bind, runs]

theorem onDisk_bind_of_error {failure : Failure}
    (fails : attempt.onDisk disk = (.error failure, after)) :
    (attempt >>= next).onDisk disk = (.error failure, after) := by
  unfold onDisk at fails ⊢
  rw [ExceptT.run_bind, Task.runOn_bind, fails]
  rfl

/-- A sequence succeeds only where both steps do. -/
theorem ok_of_onDisk_bind {result : β} {last : Disk}
    (runs : (attempt >>= next).onDisk disk = (.ok result, last)) :
    ∃ value after, attempt.onDisk disk = (.ok value, after) ∧
      (next value).onDisk after = (.ok result, last) := by
  obtain ⟨first, after, firstRuns⟩ : ∃ first after, attempt.onDisk disk = (first, after) :=
    ⟨_, _, rfl⟩
  cases first with
  | error failure =>
      rw [onDisk_bind_of_error firstRuns] at runs
      exact absurd (congrArg Prod.fst runs) nofun
  | ok value =>
      rw [onDisk_bind_of_ok firstRuns] at runs
      exact ⟨value, after, firstRuns, runs⟩

theorem onDisk_orFail_ok (describe : ε → Failure) (value : α) (disk : Disk) :
    (orFail describe (.ok value)).onDisk disk = (.ok value, disk) :=
  rfl

theorem ok_of_onDisk_orFail {describe : ε → Failure} {result : Except ε α} {value : α}
    (runs : (orFail describe result).onDisk disk = (.ok value, after)) :
    result = .ok value ∧ after = disk := by
  cases result with
  | error error => exact absurd (congrArg Prod.fst runs) nofun
  | ok other =>
      obtain ⟨sameValue, sameDisk⟩ := Prod.mk.inj runs
      exact ⟨congrArg Except.ok (Except.ok.inj sameValue), sameDisk.symm⟩

theorem onDisk_readText (path : String) (disk : Disk) :
    (readText path).onDisk disk = (.ok (disk.readText path), disk) :=
  rfl

end Attempt

open Attempt

section Steps

variable {disk after : Disk} {path text : String} {value : Value} {document : Document}

/-! ### Reading -/

theorem readJson_of_parse (reads : disk.readText path = .ok text)
    (parses : parse text = .ok value) : (readJson path).onDisk disk = (.ok value, disk) := by
  unfold readJson
  rw [onDisk_bind_of_ok (onDisk_readText path disk), reads,
    onDisk_bind_of_ok (onDisk_orFail_ok _ text disk), parses]
  rfl

/-- Text that is no data is refused without violations. -/
theorem readJson_of_fault {failure : Json.Failure} (reads : disk.readText path = .ok text)
    (fails : parse text = .error failure) :
    ∃ message, (readJson path).onDisk disk = (.error (.refused message none), disk) := by
  unfold readJson
  rw [onDisk_bind_of_ok (onDisk_readText path disk), reads,
    onDisk_bind_of_ok (onDisk_orFail_ok _ text disk), fails]
  exact ⟨_, rfl⟩

theorem ok_of_readJson (runs : (readJson path).onDisk disk = (.ok value, after)) :
    after = disk ∧ ∃ text, disk.readText path = .ok text ∧ parse text = .ok value := by
  obtain ⟨answer, first, asks, rest⟩ := ok_of_onDisk_bind runs
  obtain ⟨sameAnswer, rfl⟩ := Prod.mk.inj ((onDisk_readText path disk).symm.trans asks)
  obtain ⟨text, second, answers, rest⟩ := ok_of_onDisk_bind rest
  obtain ⟨rfl, rfl⟩ := ok_of_onDisk_orFail answers
  obtain ⟨parses, rfl⟩ := ok_of_onDisk_orFail rest
  exact ⟨rfl, text, Except.ok.inj sameAnswer, parses⟩

theorem loadDocument_of_validate {settings : Config} {result : Except Rejection Document}
    (reads : (readJson path).onDisk disk = (.ok value, disk))
    (validates : Check.validate settings.policy value = result) :
    (loadDocument settings path).onDisk disk =
      (result.mapError Failure.refusedFor, disk) := by
  unfold loadDocument
  rw [onDisk_bind_of_ok reads, validates]
  cases result with
  | error rejection => rfl
  | ok document => rfl

theorem loadDocument_of_parse (reads : disk.readText path = .ok text)
    (parses : parse text = .ok value) (accepted : Check.validate .lenient value = .ok document) :
    (loadDocument {} path).onDisk disk = (.ok document, disk) := by
  have validates : Check.validate ({} : Config).policy value = .ok document := accepted
  exact loadDocument_of_validate (readJson_of_parse reads parses) validates

theorem loadDocument_of_fault {failure : Json.Failure} (reads : disk.readText path = .ok text)
    (fails : parse text = .error failure) :
    ∃ message, (loadDocument {} path).onDisk disk = (.error (.refused message none), disk) := by
  obtain ⟨message, refuses⟩ := readJson_of_fault reads fails
  exact ⟨message, onDisk_bind_of_error refuses⟩

theorem ok_of_loadDocument {settings : Config}
    (runs : (loadDocument settings path).onDisk disk = (.ok document, after)) :
    after = disk ∧ ∃ text value, disk.readText path = .ok text ∧ parse text = .ok value ∧
      Check.validate settings.policy value = .ok document := by
  obtain ⟨value, first, reads, validates⟩ := ok_of_onDisk_bind runs
  obtain ⟨rfl, text, isText, parses⟩ := ok_of_readJson reads
  obtain ⟨accepted, rfl⟩ := ok_of_onDisk_orFail validates
  exact ⟨rfl, text, value, isText, parses, accepted⟩

/-! ### Invocations -/

theorem Failure.exitCode_ne_zero (failure : Failure) : failure.outcome.exitCode ≠ 0 := by
  cases failure <;> exact Nat.succ_ne_zero _

variable {invocation : Invocation} {outcome : Outcome}

theorem runOn_run_of_ok (runs : (attempt invocation).onDisk disk = (.ok outcome, after)) :
    (run invocation).runOn disk = (outcome, after) := by
  unfold onDisk at runs
  unfold run
  rw [Task.runOn_bind, runs]
  rfl

theorem runOn_run_of_error {failure : Failure}
    (fails : (attempt invocation).onDisk disk = (.error failure, after)) :
    (run invocation).runOn disk = (failure.outcome, after) := by
  unfold onDisk at fails
  unfold run
  rw [Task.runOn_bind, fails]
  rfl

/-- Only an attempt that succeeds ends with the exit code zero. -/
theorem ok_of_exitCode_zero (runs : (run invocation).runOn disk = (outcome, after))
    (succeeds : outcome.exitCode = 0) :
    (attempt invocation).onDisk disk = (.ok outcome, after) := by
  obtain ⟨result, last, attempted⟩ :
      ∃ result last, (attempt invocation).onDisk disk = (result, last) := ⟨_, _, rfl⟩
  cases result with
  | error failure =>
      rw [runOn_run_of_error attempted] at runs
      obtain ⟨rfl, -⟩ := Prod.mk.inj runs
      exact absurd succeeds failure.exitCode_ne_zero
  | ok other =>
      rw [runOn_run_of_ok attempted] at runs
      obtain ⟨rfl, rfl⟩ := Prod.mk.inj runs
      exact attempted

end Steps

end Wireframe.Command
