import Wireframe.Command.Disk

/-!
Contract: what a disk holds after it was changed.

Owns:
- what stands at a location after an entry was put somewhere;
- `Keeps`, and walks, which pass through directories alone and so lead where they led
  before as long as these are kept;
- `AddsDirectories` and `Puts`, what a disk can become when a directory is made and when
  a file is written.
-/

namespace Wireframe.Command

/-- A sequence succeeds only where both steps do. -/
theorem exists_of_bind_eq_ok {ε α β : Type} {first : Except ε α} {next : α → Except ε β}
    {result : β} (succeeds : (first >>= next) = .ok result) :
    ∃ value, first = .ok value ∧ next value = .ok result := by
  cases first with
  | error error => exact absurd succeeds nofun
  | ok value => exact ⟨value, rfl, succeeds⟩

theorem fromUTF8?_toUTF8 (text : String) : String.fromUTF8? text.toUTF8 = some text :=
  dif_pos text.isValidUTF8

namespace Disk

variable {disk after : Disk} {location : Location} {entry : Entry}

theorem entryAt?_put_self (notRoot : location ≠ []) :
    (disk.put location entry).entryAt? location = some entry := by
  unfold entryAt? put
  rw [if_neg notRoot, List.lookup_cons_self]

theorem lookup_filter_of_ne {other : Location} (different : other ≠ location)
    (entries : List (Location × Entry)) :
    (entries.filter fun entry => decide (entry.1 ≠ location)).lookup other =
      entries.lookup other := by
  induction entries with
  | nil => rfl
  | cons first rest inductionHypothesis =>
      obtain ⟨place, stands⟩ := first
      by_cases same : place = location
      · subst same
        have skipped : (other == place) = false := by simpa using different
        rw [List.filter_cons_of_neg (by simp), inductionHypothesis, List.lookup_cons, skipped]
      · rw [List.filter_cons_of_pos (by simpa using same), List.lookup_cons, List.lookup_cons,
          inductionHypothesis]

theorem entryAt?_put_of_ne {other : Location} (different : other ≠ location) :
    (disk.put location entry).entryAt? other = disk.entryAt? other := by
  unfold entryAt? put
  split
  · rfl
  · have skipped : (other == location) = false := by simpa using different
    rw [List.lookup_cons, skipped]
    exact lookup_filter_of_ne different disk.entries

/-- The content of the file at a location. -/
def fileAt? (disk : Disk) (location : Location) : Option ByteArray :=
  match disk.entryAt? location with
  | some (.file content) => some content
  | _ => none

theorem fileAt?_put_of_ne {other : Location} (different : other ≠ location) :
    (disk.put location entry).fileAt? other = disk.fileAt? other := by
  unfold fileAt?
  rw [entryAt?_put_of_ne different]

/-- Directories stay where no directory was replaced. -/
theorem directory_put {other : Location} (notDirectory : disk.entryAt? location ≠ some .directory)
    (isDirectory : disk.entryAt? other = some .directory) :
    (disk.put location entry).entryAt? other = some .directory := by
  rw [entryAt?_put_of_ne, isDirectory]
  rintro rfl
  exact notDirectory isDirectory

/-- Whatever else has changed, all directories are still there. -/
structure Keeps (disk after : Disk) : Prop where
  workingDirectory : after.workingDirectory = disk.workingDirectory
  directories : ∀ location, disk.entryAt? location = some .directory →
    after.entryAt? location = some .directory

theorem keeps_put (notDirectory : disk.entryAt? location ≠ some .directory) :
    disk.Keeps (disk.put location entry) :=
  ⟨rfl, fun _ isDirectory => directory_put notDirectory isDirectory⟩

/-- Every step of a walk starts at a directory. -/
theorem step_eq_ok {segment : String} {next : Location}
    (steps : disk.step location segment = .ok next) :
    disk.entryAt? location = some .directory := by
  unfold step at steps
  split at steps
  · exact absurd steps nofun
  · exact absurd steps nofun
  · assumption

/-- A path leads somewhere if it is neither empty nor too long, and can be walked. -/
theorem resolve_eq_ok_iff {path : String} {last : Location} :
    disk.resolve path = .ok last ↔ path.isEmpty = false ∧ path.utf8ByteSize ≤ pathLimit ∧
      (Path.segments path).foldlM disk.step
        (if Path.isAbsolute path then [] else disk.workingDirectory) = .ok last := by
  unfold resolve walk
  split
  · rename_i isEmpty
    simp [isEmpty]
  · rename_i notEmpty
    split
    · rename_i isLong
      simp [Nat.not_le.mpr isLong]
    · rename_i notLong
      simp [notEmpty, Nat.le_of_not_lt notLong]

namespace Keeps

theorem refl (disk : Disk) : disk.Keeps disk :=
  ⟨rfl, fun _ isDirectory => isDirectory⟩

theorem trans {last : Disk} (first : disk.Keeps after) (second : after.Keeps last) :
    disk.Keeps last where
  workingDirectory := second.workingDirectory.trans first.workingDirectory
  directories location isDirectory :=
    second.directories location (first.directories location isDirectory)

variable (keeps : disk.Keeps after)
include keeps

theorem step {start next : Location} {segment : String}
    (steps : disk.step start segment = .ok next) : after.step start segment = .ok next := by
  have isDirectory := step_eq_ok steps
  unfold Disk.step at steps ⊢
  rw [isDirectory] at steps
  rw [keeps.directories start isDirectory]
  exact steps

theorem foldlM_step {start last : Location} {segments : List String}
    (walks : segments.foldlM disk.step start = .ok last) :
    segments.foldlM after.step start = .ok last := by
  induction segments generalizing start with
  | nil => exact walks
  | cons segment segments inductionHypothesis =>
      rw [List.foldlM_cons] at walks ⊢
      obtain ⟨next, steps, walks⟩ := exists_of_bind_eq_ok walks
      rw [keeps.step steps]
      exact inductionHypothesis walks

/-- A path leads where it led before. -/
theorem resolve {path : String} {last : Location} (resolves : disk.resolve path = .ok last) :
    after.resolve path = .ok last := by
  obtain ⟨notEmpty, notLong, walks⟩ := resolve_eq_ok_iff.mp resolves
  rw [resolve_eq_ok_iff, keeps.workingDirectory]
  exact ⟨notEmpty, notLong, keeps.foldlM_step walks⟩

end Keeps

/-! ### Making directories -/

/-- No file has changed, and no directory is gone. -/
structure AddsDirectories (disk after : Disk) : Prop extends disk.Keeps after where
  files : ∀ location, after.fileAt? location = disk.fileAt? location

namespace AddsDirectories

theorem refl (disk : Disk) : disk.AddsDirectories disk :=
  ⟨.refl disk, fun _ => rfl⟩

theorem trans {last : Disk} (first : disk.AddsDirectories after)
    (second : after.AddsDirectories last) : disk.AddsDirectories last where
  toKeeps := first.toKeeps.trans second.toKeeps
  files location := (second.files location).trans (first.files location)

end AddsDirectories

/-- A directory is made where nothing stands. -/
theorem addsDirectories_of_makeDirectory {path : String}
    (makes : disk.makeDirectory path = .ok after) : disk.AddsDirectories after := by
  obtain ⟨location, -, makes⟩ := exists_of_bind_eq_ok makes
  split at makes
  · exact absurd makes nofun
  · rename_i isFree
    obtain rfl := Except.ok.inj makes
    have notDirectory : disk.entryAt? location ≠ some .directory := by
      rw [isFree]
      exact nofun
    have notRoot : location ≠ [] := by
      rintro rfl
      exact notDirectory rfl
    refine ⟨keeps_put notDirectory, fun other => ?_⟩
    by_cases same : other = location
    · subst same
      unfold fileAt?
      rw [entryAt?_put_self notRoot, isFree]
    · exact fileAt?_put_of_ne same

/-! ### Writing files -/

/-- A text is in the file that a path leads to, and no other file has changed. -/
structure Puts (disk after : Disk) (path text : String) (location : Location) : Prop
    extends disk.Keeps after where
  noSlash : Path.hasTrailingSlash path = false
  resolves : after.resolve path = .ok location
  stands : after.entryAt? location = some (.file text.toUTF8)
  others : ∀ other, other ≠ location → after.fileAt? other = disk.fileAt? other

theorem AddsDirectories.puts {last : Disk} {path text : String}
    (first : disk.AddsDirectories after) (second : after.Puts last path text location) :
    disk.Puts last path text location :=
  { second with
    toKeeps := first.toKeeps.trans second.toKeeps
    others := fun other different =>
      (second.others other different).trans (first.files other) }

/-- A file is put where no directory stands. -/
theorem puts_of_writeText {path text : String} (writes : disk.writeText path text = .ok after) :
    ∃ location, disk.Puts after path text location := by
  unfold writeText at writes
  split at writes
  · obtain ⟨location, -, writes⟩ := exists_of_bind_eq_ok writes
    exact absurd writes nofun
  · rename_i noSlash
    obtain ⟨location, resolves, writes⟩ := exists_of_bind_eq_ok writes
    split at writes
    · exact absurd writes nofun
    · rename_i notDirectory
      obtain rfl := Except.ok.inj writes
      have keeps : disk.Keeps (disk.put location (.file text.toUTF8)) := keeps_put notDirectory
      have notRoot : location ≠ [] := by
        rintro rfl
        exact notDirectory rfl
      exact ⟨location, keeps, by simpa using noSlash, keeps.resolve resolves,
        entryAt?_put_self notRoot, fun _ different => fileAt?_put_of_ne different⟩

/-! ### Reading files -/

/-- The text at a path is that of the file that stands where the path leads. -/
theorem readText_of_entryAt? {path text : String} (noSlash : Path.hasTrailingSlash path = false)
    (resolves : disk.resolve path = .ok location)
    (stands : disk.entryAt? location = some (.file text.toUTF8)) :
    disk.readText path = .ok text := by
  have arrives : (disk.resolve path).mapError ReadError.system = .ok location := by
    rw [resolves]
    rfl
  unfold readText
  rw [arrives]
  simp only [bind, Except.bind, stands, noSlash, Bool.false_eq_true, if_false, fromUTF8?_toUTF8]
  rfl

/-- A file that was written is read back. -/
theorem Puts.readText {path text : String} (puts : disk.Puts after path text location) :
    after.readText path = .ok text :=
  readText_of_entryAt? puts.noSlash puts.resolves puts.stands

/-- No file is read at the empty path. -/
theorem notEmpty_of_readText {path text : String} (reads : disk.readText path = .ok text) :
    path.isEmpty = false := by
  obtain ⟨location, arrives, -⟩ := exists_of_bind_eq_ok reads
  cases resolves : disk.resolve path with
  | error error =>
      rw [resolves] at arrives
      exact absurd arrives nofun
  | ok last => exact (resolve_eq_ok_iff.mp resolves).1

end Disk

end Wireframe.Command
