import Wireframe.Proofs.Check.Distinct
import Wireframe.Proofs.Check.Gate
import Wireframe.Proofs.Check.Ids

/-!
Contract: no location is reported twice, by either rule.

Owns:
- the paths under which repeated ids are reported;
- the rule of shapes and the rule of ids never speak of one path: an id is looked at by
  the one where it is a text and by the other where it is not.
-/

namespace Wireframe.Check

open Json

/-! ### Paths of repeated ids -/

/-- The children of a node in data, none where they are not a list. -/
def childItems (members : List (String × Value)) : List Value :=
  match members.lookup "children" with
  | some (.array items) => items
  | _ => []

/-- Induction over a tree in data: what is claimed may be assumed for the children. -/
@[elab_as_elim] theorem children_induction {motive : Value → Prop}
    (object : ∀ members, (∀ item ∈ childItems members, motive item) → motive (.object members))
    (other : ∀ value, (∀ members, value ≠ .object members) → motive value)
    (value : Value) : motive value := by
  have both : motive value ∧ ∀ items, value = .array items → ∀ item ∈ items, motive item := by
    induction value using Value.induction with
    | object members inductionHypothesis =>
        refine ⟨object members fun item isItem => ?_, by simp⟩
        unfold childItems at isItem
        split at isItem
        · rename_i items present
          exact (inductionHypothesis _ (Value.mem_of_lookup present)).2 items rfl item isItem
        · simp at isItem
    | array items inductionHypothesis =>
        refine ⟨other _ (by simp), fun inside isArray item isItem => ?_⟩
        cases isArray
        exact (inductionHypothesis item isItem).1
    | _ => exact ⟨other _ (by simp), by simp⟩
  exact both.1

theorem itemIdPaths_eq_flatMap (items : List Value) (path : String) (start : Nat) :
    itemIdPaths items path start =
      (items.zipIdx start).flatMap fun entry => idPaths entry.1 (itemPath path entry.2) := by
  induction items generalizing start with
  | nil => rfl
  | cons item rest inductionHypothesis =>
      rw [itemIdPaths, inductionHypothesis, List.zipIdx_cons, List.flatMap_cons]

/-- The ids in an object are its own and those in its children. -/
theorem idPaths_object (members : List (String × Value)) (path : String) :
    idPaths (.object members) path = ownId members path ++
      (childItems members).zipIdx.flatMap fun entry =>
        idPaths entry.1 (itemPath (memberPath path "children") entry.2) := by
  rw [idPaths, Node.childIdPaths_eq]
  unfold childItems
  cases members.lookup "children" with
  | none => rfl
  | some value =>
      cases value with
      | array items => simp [listIdPaths, itemIdPaths_eq_flatMap]
      | _ => rfl

theorem idPaths_of_not_object {value : Value} (notObject : ∀ members, value ≠ .object members)
    (path : String) : idPaths value path = [] := by
  cases value with
  | object members => exact absurd rfl (notObject members)
  | _ => rfl

theorem mem_ownId {members : List (String × Value)} {path : String} {entry : String × String} :
    entry ∈ ownId members path ↔
      members.lookup "id" = some (.string entry.1) ∧ entry.2 = path := by
  unfold ownId Value.member?
  split <;> simp_all [Prod.ext_iff, eq_comm]

theorem lookup_of_mem_childItems {members : List (String × Value)} {item : Value}
    (isItem : item ∈ childItems members) :
    members.lookup "children" = some (.array (childItems members)) := by
  unfold childItems at isItem ⊢
  split at isItem
  · rename_i items present
    simp [present]
  · simp at isItem

/-- The path under which an id is reported where it is a repeated one. -/
def idPath (entry : String × String) : String :=
  memberPath entry.2 "id"

theorem inside_of_mem_ownId {members : List (String × Value)} {path : String}
    {entry : String × String} (isEntry : entry ∈ ownId members path) :
    Inside (memberPath path "id") (idPath entry) := by
  rw [idPath, (mem_ownId.mp isEntry).2]
  exact inside_self _

/-- Ids are reported inside the path at which the search for them starts. -/
theorem inside_of_mem_idPaths (value : Value) :
    ∀ path, ∀ entry ∈ idPaths value path, Inside path (idPath entry) := by
  induction value using children_induction with
  | object members inductionHypothesis =>
      intro path entry isEntry
      rw [idPaths_object, List.mem_append, List.mem_flatMap] at isEntry
      rcases isEntry with isOwn | ⟨item, isItem, isBelow⟩
      · exact (inside_memberPath path "id").trans (inside_of_mem_ownId isOwn)
      · have below := inductionHypothesis item.1 (List.fst_mem_of_mem_zipIdx isItem) _ entry isBelow
        exact (inside_memberPath path "children").trans ((inside_itemPath _ item.2).trans below)
  | other value notObject => simp [idPaths_of_not_object notObject]

/-- Nothing is reported both about the id of a node and about its children. -/
theorem not_inside_children {path place : String} (inside : Inside (memberPath path "id") place) :
    ¬ Inside (memberPath path "children") place := by
  intro below
  have impossible := name_unique (by decide) (by decide) inside below
  exact absurd impossible (by decide)

theorem nodup_idPaths (value : Value) :
    ∀ path, ((idPaths value path).map idPath).Nodup := by
  induction value using children_induction with
  | object members inductionHypothesis =>
      intro path
      rw [idPaths_object, List.map_append, List.nodup_append]
      refine ⟨?_, ?_, ?_⟩
      · unfold ownId
        split <;> simp
      · exact nodup_items idPaths inductionHypothesis
          (fun item _ => inside_of_mem_idPaths item) _
      · intro own isOwn later isLater same
        rcases List.mem_map.mp isOwn with ⟨entry, isEntry, rfl⟩
        rcases List.mem_map.mp isLater with ⟨other, isOther, rfl⟩
        rcases List.mem_flatMap.mp isOther with ⟨item, isItem, isBelow⟩
        apply not_inside_children (inside_of_mem_ownId isEntry)
        rw [same]
        exact (inside_itemPath _ item.2).trans (inside_of_mem_idPaths item.1 _ other isBelow)
  | other value notObject => simp [idPaths_of_not_object notObject]

theorem paths_duplicates_sublist (seen entries : List (String × String)) :
    (paths (duplicates seen entries)).Sublist (entries.map idPath) := by
  induction entries generalizing seen with
  | nil => exact List.Sublist.refl _
  | cons entry rest inductionHypothesis =>
      rw [duplicates, List.map_cons]
      split
      · exact (inductionHypothesis seen).cons_cons _
      · exact (inductionHypothesis _).cons _

/-! ### Both rules together -/

/-- Where a value violates the shape of nodes, no id is reported. -/
theorem path_ne_idPath (value : Value) :
    ∀ path, ∀ found ∈ check nodeShape value (.node false) path,
      ∀ entry ∈ idPaths value path, found.path ≠ idPath entry := by
  induction value using children_induction with
  | object members inductionHypothesis =>
      intro path found isFound entry isEntry same
      have tidy := tidy_of_isTidy (isTidy_node false)
      rcases List.mem_flatMap.mp isFound with ⟨member, isMember, isFound⟩
      rcases inside_of_mem_checkMember (fun inner _ => inside_of_mem_check inner.2) isFound with
        ⟨name, isName, inside⟩
      rw [idPaths_object, List.mem_append, List.mem_flatMap] at isEntry
      rcases isEntry with isOwn | ⟨item, isItem, isBelow⟩
      -- An id is a text, in which the shape finds nothing.
      · have isId : member = ("id", .required, .text) :=
          tidy.unique_of_inside isMember (by simp [nodeShape]) isName (mem_namesOf_self ..) inside
            (same ▸ inside_of_mem_ownId isOwn)
        rw [isId, checkMember_of_present (Or.inl rfl) (mem_ownId.mp isOwn).1] at isFound
        simp [check] at isFound
      -- An id below stands in one child, and the violation in the same one.
      · have insideItem := inside_of_mem_idPaths item.1 _ entry isBelow
        have isChildren : member = ("children", .optional, .list (.node false)) :=
          tidy.unique_of_inside isMember (by simp [nodeShape, optional]) isName
            (mem_namesOf_self ..) inside (same ▸ (inside_itemPath _ item.2).trans insideItem)
        have present := lookup_of_mem_childItems (List.fst_mem_of_mem_zipIdx isItem)
        rw [isChildren, checkMember_of_present (Or.inr rfl) present, check,
          checkItems_eq_flatMap, List.mem_flatMap] at isFound
        rcases isFound with ⟨other, isOther, isFound⟩
        have insideOther := inside_of_mem_check other.1 _ _ found isFound
        have sameIndex : other.2 = item.2 := index_unique insideOther (same ▸ insideItem)
        rw [List.mem_zipIdx_iff_getElem?] at isItem isOther
        have sameItem : other.1 = item.1 := by
          rw [sameIndex, isItem] at isOther
          exact (Option.some.inj isOther).symm
        rw [sameItem, sameIndex] at isFound
        exact inductionHypothesis item.1 (List.mem_of_getElem? isItem) _ found isFound entry
          isBelow same
  | other value notObject => simp [idPaths_of_not_object notObject]

/-- No two violations of a document have one path, whichever rule they come from. -/
theorem nodup_documentViolations {value : Value} (ordered : value.Ordered) :
    (paths (documentViolations value)).Nodup := by
  have shapes : (paths (violations documentRule value)).Nodup :=
    nodup_check value documentRule isTidy_document ordered rootPath
  rw [documentViolations, paths, List.map_append]
  cases value with
  | object members =>
      rw [uniqueIdViolations]
      split
      · rename_i tree present
        have sublist := paths_duplicates_sublist [] (idPaths tree "$.layoutTree")
        refine List.nodup_append.mpr ⟨shapes, sublist.nodup (nodup_idPaths tree _), ?_⟩
        intro first isFirst later isLater same
        rcases List.mem_map.mp isFirst with ⟨found, isFound, rfl⟩
        rcases List.mem_map.mp (sublist.subset isLater) with ⟨entry, isEntry, rfl⟩
        have tidy := tidy_of_isTidy isTidy_document
        rcases List.mem_flatMap.mp isFound with ⟨member, isMember, isFound⟩
        rcases inside_of_mem_checkMember (fun inner _ => inside_of_mem_check inner.2) isFound with
          ⟨name, isName, inside⟩
        have isTree : member = ("layoutTree", .required, .node false) :=
          tidy.unique_of_inside isMember (by simp [required]) isName (mem_namesOf_self ..)
            inside (same ▸ inside_of_mem_idPaths tree _ entry isEntry)
        rw [isTree, checkMember_of_present (Or.inl rfl) present] at isFound
        exact path_ne_idPath tree _ found isFound entry isEntry same
      · simpa [paths] using shapes
  | _ => simpa [uniqueIdViolations, paths] using shapes

theorem nodup_patchesViolations {value : Value} (ordered : value.Ordered) :
    (paths (patchesViolations value)).Nodup := by
  cases value with
  | array items => exact nodup_check (.array items) (.list patchRule) isTidy_patch ordered rootPath
  | _ => simp [patchesViolations, wrongKind, paths]

/-- No location is reported twice: neither in the report on a document, in which both
rules speak, nor where a node, a patch or a list of patches is refused. -/
theorem no_path_twice (value : Value) (ordered : value.Ordered) :
    (∀ policy, ((report policy value).violations.map Violation.path).Nodup) ∧
      ((refusals (validateNode value)).map Violation.path).Nodup ∧
      ((refusals (validatePatch value)).map Violation.path).Nodup ∧
      ((refusals (validatePatches value)).map Violation.path).Nodup := by
  rw [refusals_validateNode ordered, refusals_validatePatch ordered,
    refusals_validatePatches ordered]
  refine ⟨fun _ => nodup_documentViolations ordered, ?_, ?_, nodup_patchesViolations ordered⟩
  · exact nodup_check value (.node false) rfl ordered rootPath
  · exact nodup_check value patchRule isTidy_patch ordered rootPath

/-- A document whose free keys are spelled like the rest of a path, with a conflict of
names, a missing id and a repeated one. -/
def crowded : Value :=
  .object [("id", .string "d"), ("layoutTree", .object [
    ("bindings", .object [("", .null), (".", .null), ("children[0].id", .null)]),
    ("children", .array [
      .object [("id", .string "n"), ("media", .object [("uri", .null), ("url", .null)]),
        ("type", .string "image")],
      .object [("type", .string "text")]]),
    ("id", .string "n"), ("type", .string "page")])]

theorem ordered_crowded : crowded.Ordered := by
  simp only [crowded, Value.Ascending, Value.Ordered, Value.OrderedItems, Value.OrderedMembers]
  decide

theorem no_path_twice_crowded :
    (report .lenient crowded).violations.map Violation.path =
        ["$.layoutTree.bindings.", "$.layoutTree.bindings..",
          "$.layoutTree.bindings.children[0].id", "$.layoutTree.children[0].media.uri",
          "$.layoutTree.children[0].media.url", "$.layoutTree.children[1].id",
          "$.layoutTree.children[0].id"] ∧
      ((report .lenient crowded).violations.map Violation.path).Nodup :=
  ⟨by decide, (no_path_twice crowded ordered_crowded).1 .lenient⟩

end Wireframe.Check
