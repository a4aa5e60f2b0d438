import Wireframe.Proofs.Command.Disk

/-!
Contract: where the paths below a directory lead.

Owns:
- the segments of a joined path: those of the directory, and those below it;
- plain paths, which lead straight down from where the directory is;
- plain paths below one directory, which lead to one location only if their segments are
  the same.
-/

namespace Wireframe.Command

namespace Path

/-! ### Segments -/

/-- The parts of some characters between slashes, without their offsets. -/
def texts (done chars : List Char) : List (List Char) :=
  (parts 0 done chars).map Prod.fst

theorem map_fst_parts (start : Nat) (done chars : List Char) :
    (parts start done chars).map Prod.fst = texts done chars := by
  unfold texts
  induction chars generalizing start done with
  | nil => rfl
  | cons char rest inductionHypothesis =>
      unfold parts
      split
      · rw [List.map_cons, List.map_cons, inductionHypothesis (start + done.length + 1),
          inductionHypothesis (0 + done.length + 1)]
      · exact inductionHypothesis start (char :: done)

theorem texts_slash (done rest : List Char) :
    texts done ('/' :: rest) = done.reverse :: texts [] rest := by
  rw [texts, parts, if_pos rfl, List.map_cons, map_fst_parts]

theorem texts_char {char : Char} (notSlash : char ≠ '/') (done rest : List Char) :
    texts done (char :: rest) = texts (char :: done) rest := by
  rw [texts, parts, if_neg notSlash, texts]

theorem texts_append_slash (done chars rest : List Char) :
    texts done (chars ++ '/' :: rest) = texts done chars ++ texts [] rest := by
  induction chars generalizing done with
  | nil => exact texts_slash done rest
  | cons char chars inductionHypothesis =>
      rw [List.cons_append]
      by_cases isSlash : char = '/'
      · subst isSlash
        rw [texts_slash, texts_slash, inductionHypothesis, List.cons_append]
      · rw [texts_char isSlash, texts_char isSlash, inductionHypothesis]

theorem segments_eq (path : String) :
    segments path =
      ((texts [] path.toList).filter fun text => !text.isEmpty).map String.ofList := by
  rw [segments, texts, List.filter_map, List.map_map]
  rfl

theorem segments_append_slash {path : String} {chars rest : List Char}
    (isPath : path.toList = chars ++ '/' :: rest) :
    segments path = segments (String.ofList chars) ++ segments (String.ofList rest) := by
  rw [segments_eq, segments_eq, segments_eq, isPath, texts_append_slash, List.filter_append,
    List.map_append, String.toList_ofList, String.toList_ofList]

theorem segments_join (base relative : String) :
    segments (join base relative) = segments base ++ segments relative := by
  unfold join
  split
  · rename_i isEmpty
    obtain rfl : base = "" := String.toList_injective (List.getLast?_eq_none_iff.mp isEmpty)
    rfl
  · rename_i endsInSlash
    obtain ⟨chars, isBase⟩ := List.getLast?_eq_some_iff.mp endsInSlash
    have isJoined : (base ++ relative).toList = chars ++ '/' :: relative.toList := by
      simp [isBase]
    rw [segments_append_slash isJoined, segments_append_slash isBase, String.ofList_toList]
    simp [segments, parts]
  · have isJoined : (base ++ "/" ++ relative).toList = base.toList ++ '/' :: relative.toList := by
      simp
    rw [segments_append_slash isJoined, String.ofList_toList, String.ofList_toList]

/-! ### Plain paths -/

/-- A relative path that leads straight down. -/
structure IsPlain (path : String) : Prop where
  relative : isAbsolute path = false
  straight : ∀ segment ∈ segments path, segment ≠ "." ∧ segment ≠ ".."

instance (path : String) : Decidable (IsPlain path) :=
  decidable_of_iff (isAbsolute path = false ∧ ∀ segment ∈ segments path,
      segment ≠ "." ∧ segment ≠ "..")
    ⟨fun holds => ⟨holds.1, holds.2⟩, fun isPlain => ⟨isPlain.relative, isPlain.straight⟩⟩

theorem isAbsolute_join (base : String) {relative : String}
    (isRelative : isAbsolute relative = false) :
    isAbsolute (join base relative) = isAbsolute base := by
  unfold join
  split
  · rename_i isEmpty
    obtain rfl : base = "" := String.toList_injective (List.getLast?_eq_none_iff.mp isEmpty)
    exact isRelative
  all_goals
    rename_i isLast
    obtain ⟨chars, isBase⟩ := List.getLast?_eq_some_iff.mp isLast
    unfold isAbsolute
    cases chars <;> simp [isBase]

end Path

namespace Disk

variable {disk : Disk}

theorem step_of_straight {start next : Location} {segment : String}
    (straight : segment ≠ "." ∧ segment ≠ "..") (steps : disk.step start segment = .ok next) :
    next = start ++ [segment] := by
  unfold step at steps
  rw [if_neg straight.1, if_neg straight.2] at steps
  split at steps
  · exact absurd steps nofun
  · exact absurd steps nofun
  · split at steps
    · exact absurd steps nofun
    · exact (Except.ok.inj steps).symm

theorem foldlM_of_straight {start last : Location} {segments : List String}
    (straight : ∀ segment ∈ segments, segment ≠ "." ∧ segment ≠ "..")
    (walks : segments.foldlM disk.step start = .ok last) : last = start ++ segments := by
  induction segments generalizing start with
  | nil => simpa using (Except.ok.inj walks).symm
  | cons segment segments inductionHypothesis =>
      rw [List.forall_mem_cons] at straight
      rw [List.foldlM_cons] at walks
      obtain ⟨next, steps, walks⟩ := exists_of_bind_eq_ok walks
      obtain rfl := step_of_straight straight.1 steps
      rw [inductionHypothesis straight.2 walks]
      simp

/-- A plain path below a directory leads straight down from it. -/
theorem exists_of_resolve_join {base relative : String} {location : Location}
    (isPlain : Path.IsPlain relative)
    (resolves : disk.resolve (Path.join base relative) = .ok location) :
    ∃ top, (Path.segments base).foldlM disk.step
        (if Path.isAbsolute base then [] else disk.workingDirectory) = .ok top ∧
      location = top ++ Path.segments relative := by
  obtain ⟨-, -, walks⟩ := resolve_eq_ok_iff.mp resolves
  rw [Path.segments_join, Path.isAbsolute_join base isPlain.relative, List.foldlM_append] at walks
  obtain ⟨top, leads, below⟩ := exists_of_bind_eq_ok walks
  exact ⟨top, leads, foldlM_of_straight isPlain.straight below⟩

/-- Plain paths below one directory that lead to the same location. -/
theorem segments_eq_of_resolve_join {base left right : String} {location : Location}
    (plainLeft : Path.IsPlain left) (plainRight : Path.IsPlain right)
    (leadsLeft : disk.resolve (Path.join base left) = .ok location)
    (leadsRight : disk.resolve (Path.join base right) = .ok location) :
    Path.segments left = Path.segments right := by
  obtain ⟨top, leads, isLeft⟩ := exists_of_resolve_join plainLeft leadsLeft
  obtain ⟨other, leadsToo, isRight⟩ := exists_of_resolve_join plainRight leadsRight
  obtain rfl := Except.ok.inj (leads.symm.trans leadsToo)
  exact List.append_cancel_left (isLeft.symm.trans isRight)

end Disk

end Wireframe.Command
