import Wireframe.Proofs.Patch.InPlace

/-!
Contract: a row of patches is the fold of its patches, at every entry.

Owns:
- one row behind another, and the patch at which a row fails;
- the row applied in place, which leaves the tree that the patches before the
  failing one made;
- the row applied to a copy and to the tree of a document.

Does not own: what one patch does.
-/

namespace Wireframe.Patch

open InPlace

variable {patch : Patch} {patches before after rest : List Patch} {tree reached edited : Node}
  {error : PatchError}

/-! ### Rows of patches -/

theorem applyAll_append (patches rest : List Patch) (tree : Node) :
    applyAll (patches ++ rest) tree = (applyAll patches tree).bind (applyAll rest) := by
  unfold applyAll
  rw [List.foldlM_append]
  rfl

theorem applyAll_append_of_ok (applied : applyAll patches tree = .ok reached) :
    applyAll (patches ++ rest) tree = applyAll rest reached := by
  rw [applyAll_append, applied]
  rfl

theorem applyAll_append_of_error (failed : applyAll patches tree = .error error) :
    applyAll (patches ++ rest) tree = .error error := by
  rw [applyAll_append, failed]
  rfl

theorem applyAll_cons_of_error (failed : patch.apply tree = .error error) :
    applyAll (patch :: rest) tree = .error error := by
  rw [← applyAll_singleton] at failed
  exact applyAll_append_of_error failed

/-- A row fails as one of its patches does on the tree that the patches before it
lead to. The patches behind that one play no part. -/
theorem applyAll_eq_error_iff : applyAll patches tree = .error error ↔
    ∃ before patch after reached, patches = before ++ patch :: after ∧
      applyAll before tree = .ok reached ∧ patch.apply reached = .error error := by
  constructor
  · intro failed
    induction patches generalizing tree with
    | nil => cases failed
    | cons patch rest inductionHypothesis =>
        cases applied : patch.apply tree with
        | error reason =>
            rw [applyAll_cons_of_error applied] at failed
            cases failed
            exact ⟨[], patch, rest, tree, rfl, rfl, applied⟩
        | ok next =>
            rw [applyAll_cons_of_ok applied] at failed
            rcases inductionHypothesis failed with
              ⟨before, failing, after, reached, rfl, reaches, fails⟩
            refine ⟨patch :: before, failing, after, reached, rfl, ?_, fails⟩
            rw [applyAll_cons_of_ok applied, reaches]
  · rintro ⟨before, failing, after, reached, rfl, reaches, fails⟩
    rw [applyAll_append_of_ok reaches, applyAll_cons_of_error fails]

/-! ### Rows in place -/

/-- A step of a row that succeeds hands the edited tree to the next one. -/
theorem applyEachInPlace_cons_of_ok (applied : patch.apply tree = .ok reached) :
    applyEachInPlace (patch :: rest) tree = applyEachInPlace rest reached := by
  rcases exists_applyHit_of_apply applied with ⟨hit, hits⟩
  have steps : patch.applyInPlace tree = (.ok hit, reached) := by
    rw [applyInPlace_eq, hits]
    rfl
  exact bind_of_ok steps

/-- A step of a row that fails ends it and leaves the tree that it met. -/
theorem applyEachInPlace_cons_of_error (failed : patch.apply tree = .error error) :
    applyEachInPlace (patch :: rest) tree = (.error (.failed error), tree) := by
  have fails : patch.applyHit tree = .error error := by
    unfold apply at failed
    cases outcome : patch.applyHit tree with
    | error reason =>
        rw [outcome] at failed
        cases failed
        rfl
    | ok result =>
        rw [outcome] at failed
        cases failed
  have stops : patch.applyInPlace tree = (.error (.failed error), tree) := by
    rw [applyInPlace_eq, fails]
    rfl
  exact bind_of_error stops

theorem applyEachInPlace_append_of_ok (applied : applyAll before tree = .ok reached) :
    applyEachInPlace (before ++ rest) tree = applyEachInPlace rest reached := by
  induction before generalizing tree with
  | nil =>
      cases applied
      rfl
  | cons patch before inductionHypothesis =>
      rcases applyAll_cons applied with ⟨next, first, others⟩
      rw [List.cons_append, applyEachInPlace_cons_of_ok first, inductionHypothesis others]

theorem applyEachInPlace_of_ok (applied : applyAll patches tree = .ok edited) :
    applyEachInPlace patches tree = (.ok (), edited) := by
  rw [← List.append_nil patches, applyEachInPlace_append_of_ok applied]
  rfl

/-- What stops a row in place leaves the tree that the patches before it made. -/
theorem applyEachInPlace_of_fails (reaches : applyAll before tree = .ok reached)
    (fails : patch.apply reached = .error error) :
    applyEachInPlace (before ++ patch :: after) tree = (.error (.failed error), reached) := by
  rw [applyEachInPlace_append_of_ok reaches, applyEachInPlace_cons_of_error fails]

/-! ### Rows on a copy -/

theorem applyOnCopy_eq (patches : List Patch) (tree : Node) :
    applyOnCopy patches tree = (applyAll patches tree).mapError Stop.failed := by
  unfold applyOnCopy
  cases applied : applyAll patches tree with
  | ok edited =>
      have runs : (applyEachInPlace patches).run.run tree = (.ok (), edited) :=
        applyEachInPlace_of_ok applied
      rw [runs]
      rfl
  | error error =>
      rcases applyAll_eq_error_iff.mp applied with
        ⟨before, failing, after, reached, rfl, reaches, fails⟩
      have stops : (applyEachInPlace (before ++ failing :: after)).run.run tree =
          (.error (.failed error), reached) := applyEachInPlace_of_fails reaches fails
      rw [stops]
      rfl

/-- A row of patches is the fold of its patches. It fails as the first patch that
fails on the tree made by those before it, whatever follows. In place the same tree
comes about, and a failure leaves what was made before it. A row on a copy and one on
a document have the result of the fold, and of a document nothing but the tree is
replaced. -/
theorem row_folds_patches (patches : List Patch) (tree : Node) :
    applyAll [] tree = .ok tree ∧
      (∀ patch, applyAll [patch] tree = patch.apply tree) ∧
      (∀ rest reached, applyAll patches tree = .ok reached →
        applyAll (patches ++ rest) tree = applyAll rest reached) ∧
      (∀ rest error, applyAll patches tree = .error error →
        applyAll (patches ++ rest) tree = .error error) ∧
      (∀ error, applyAll patches tree = .error error ↔
        ∃ before patch after reached, patches = before ++ patch :: after ∧
          applyAll before tree = .ok reached ∧ patch.apply reached = .error error) ∧
      (∀ edited, applyAll patches tree = .ok edited →
        (applyEachInPlace patches).run.run tree = (.ok (), edited)) ∧
      (∀ before patch after reached error, patches = before ++ patch :: after →
        applyAll before tree = .ok reached → patch.apply reached = .error error →
          (applyEachInPlace patches).run.run tree = (.error (.failed error), reached)) ∧
      applyOnCopy patches tree = (applyAll patches tree).mapError Stop.failed ∧
      ∀ document : Document, document.layoutTree = tree →
        document.patched patches =
          (applyAll patches tree).map fun edited => { document with layoutTree := edited } := by
  refine ⟨rfl, fun patch => applyAll_singleton patch tree,
    fun rest reached applied => applyAll_append_of_ok applied,
    fun rest error failed => applyAll_append_of_error failed,
    fun error => applyAll_eq_error_iff, fun edited applied => applyEachInPlace_of_ok applied,
    ?_, applyOnCopy_eq patches tree, ?_⟩
  · rintro before patch after reached error rfl reaches fails
    exact applyEachInPlace_of_fails reaches fails
  · rintro document rfl
    rfl

/-- The second of three patches fails: the first has renamed a twin by then, and what
the third would do is of no account. -/
theorem row_folds_patches_interrupted :
    let naming := Patch.update "twin" { id := some "other" }
    let renamed : Node := .mk { id := "page", kind := .page }
      [.mk { id := "other", kind := .card } [], .mk { id := "twin", kind := .card } []]
    applyAll [naming, .remove "page", .remove "twin"] twins = .error (.rootRemoval "page") ∧
      (applyEachInPlace [naming, .remove "page", .remove "twin"]).run.run twins =
        (.error (.failed (.rootRemoval "page")), renamed) := by
  intro naming renamed
  have folds := row_folds_patches [naming, .remove "page", .remove "twin"] twins
  have reaches : applyAll [naming] twins = .ok renamed := rfl
  have fails : (Patch.remove "page").apply renamed = .error (.rootRemoval "page") := rfl
  constructor
  · exact (folds.2.2.2.2.1 _).mpr ⟨[naming], _, [.remove "twin"], renamed, rfl, reaches, fails⟩
  · exact folds.2.2.2.2.2.2.1 [naming] _ [.remove "twin"] renamed _ rfl reaches fails

end Wireframe.Patch
