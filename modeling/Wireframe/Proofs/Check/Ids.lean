import Wireframe.Proofs.Check.Gate
import Wireframe.Proofs.Node.Paths

/-!
Contract: the ids that are found in data are those of the decoded tree.

Owns:
- `Node.idPaths`, the ids of a tree with the paths of their nodes, in pre-order;
- the warnings about the ids of a document, which depend on its tree alone.
-/

namespace Wireframe

open Json Codec Check

namespace Node

mutual

/-- The ids of a tree with the paths of their nodes, in pre-order. -/
def idPaths : Node → String → List (String × String)
  | mk attributes children, path =>
      (attributes.id, path) :: idPathsBelow children (memberPath path "children") 0

/-- The ids of some trees, the first of which has a given index. -/
def idPathsBelow : List Node → String → Nat → List (String × String)
  | [], _, _ => []
  | node :: rest, path, index =>
      idPaths node (itemPath path index) ++ idPathsBelow rest path (index + 1)

end

/-! ### What is found where a node was decoded -/

theorem of_decodeChildren {value : Value} {children : List Node}
    (decodes : decodeChildren value = .ok children) :
    ∃ items, value = .array items ∧ decodeAll items = .ok children := by
  cases value with
  | array items => exact ⟨items, rfl, decodes⟩
  | _ => cases decodes

theorem of_decode_string {value : Value} {text : String}
    (decodes : Codec.string.decode value = .ok text) : value = .string text := by
  cases value with
  | string given => exact congrArg Value.string (Except.ok.inj decodes)
  | _ => cases decodes

/-- The members that an object has where it decodes to a node. -/
theorem members_of_decode {members : List (String × Value)} {node : Node}
    (distinct : (members.map Prod.fst).Nodup)
    (decodes : codec.decode (.object members) = .ok node) :
    members.lookup "id" = some (.string node.id) ∧
      ((members.lookup "children" = none ∧ node.children = []) ∨
        ∃ items, members.lookup "children" = some (.array items) ∧
          decodeAll items = .ok node.children) := by
  obtain ⟨⟨id, kind, name, role, text, placeholder, media, bindings, constraints, layout, style,
    state, events, children, ⟨⟩⟩, found, rfl⟩ := exists_found_of_decode decodes
  simp only [fields, Attributes.fieldsThen, Fields.find, Outcome.pair_eq_found] at found
  obtain ⟨foundId, -, -, -, -, -, -, -, -, -, -, -, -, foundChildren, -⟩ := found
  have isId : members.lookup "id" = some (.string id) := by
    rcases Field.of_find_eq_found rfl distinct foundId with
      ⟨-, noDefault⟩ | ⟨given, present, decodesId⟩
    · cases noDefault
    · rw [← of_decode_string decodesId]
      exact present
  refine ⟨isId, ?_⟩
  rcases Field.of_find_eq_found rfl distinct foundChildren with
    ⟨absent, isDefault⟩ | ⟨value, present, decodesBelow⟩
  · exact Or.inl ⟨absent, (Option.some.inj isDefault).symm⟩
  · obtain ⟨items, rfl, decodesItems⟩ :=
      of_decodeChildren ((decodeChildren_eq value).trans decodesBelow)
    exact Or.inr ⟨items, present, decodesItems⟩

/-! ### The ids of a value -/

theorem childIdPaths_eq (members : List (String × Value)) (path : String) :
    childIdPaths members path = ((members.lookup "children").map fun value =>
      listIdPaths value (memberPath path "children")).getD [] := by
  induction members with
  | nil => rfl
  | cons member rest inductionHypothesis =>
      obtain ⟨key, value⟩ := member
      rw [childIdPaths, Value.lookup_cons_eq_ite]
      by_cases same : key = "children"
      · rw [if_pos same, if_pos same.symm]
        rfl
      · rw [if_neg same, if_neg fun equal => same equal.symm]
        exact inductionHypothesis

theorem checkItems_eq_nil {items : List Value} {rule : Rule} {path : String} {index : Nat}
    (clean : checkItems nodeShape items rule path index = []) :
    ∀ item ∈ items, ∃ path, check nodeShape item rule path = [] := by
  induction items generalizing index with
  | nil => exact List.forall_mem_nil _
  | cons item rest inductionHypothesis =>
      obtain ⟨first, others⟩ := List.append_eq_nil_iff.mp clean
      exact List.forall_mem_cons.mpr ⟨⟨_, first⟩, inductionHypothesis others⟩

theorem of_decodeAll_cons {item : Value} {rest : List Value} {nodes : List Node}
    (decodes : decodeAll (item :: rest) = .ok nodes) :
    ∃ node below, codec.decode item = .ok node ∧ decodeAll rest = .ok below ∧
      nodes = node :: below := by
  rw [decodeAll] at decodes
  cases isNode : decode item with
  | error failure =>
      rw [isNode] at decodes
      cases decodes
  | ok node =>
      cases areBelow : decodeAll rest with
      | error failure =>
          rw [isNode, areBelow] at decodes
          cases decodes
      | ok below =>
          rw [isNode, areBelow] at decodes
          exact ⟨node, below, isNode, rfl, (Except.ok.inj decodes).symm⟩

theorem itemIdPaths_eq {items : List Value} {nodes : List Node}
    (each : ∀ node ∈ nodes, ∀ item ∈ items, codec.decode item = .ok node →
      ∀ path, Check.idPaths item path = node.idPaths path)
    (decodes : decodeAll items = .ok nodes) (path : String) (index : Nat) :
    itemIdPaths items path index = idPathsBelow nodes path index := by
  induction items generalizing nodes index with
  | nil =>
      rw [← Except.ok.inj decodes]
      rfl
  | cons item rest inductionHypothesis =>
      obtain ⟨node, below, isNode, areBelow, rfl⟩ := of_decodeAll_cons decodes
      have first := each node List.mem_cons_self item List.mem_cons_self isNode
      have others := inductionHypothesis (fun child isChild other isOther =>
        each child (List.mem_cons_of_mem _ isChild) other (List.mem_cons_of_mem _ isOther))
        areBelow
      rw [itemIdPaths, idPathsBelow, first, others]

/-- Data that passes the rule of nodes has the ids of the node that it decodes to. -/
theorem idPaths_of_decode {value : Value} {node : Node} (ordered : value.Ordered)
    (clean : ∃ place, check nodeShape value (.node false) place = [])
    (decodes : codec.decode value = .ok node) (path : String) :
    Check.idPaths value path = node.idPaths path := by
  induction node using Node.induction generalizing value path with
  | mk attributes children inductionHypothesis =>
      obtain ⟨place, clean⟩ := clean
      cases value with
      | object members =>
          rw [Value.ordered_object] at ordered
          obtain ⟨isId, inside⟩ := members_of_decode ordered.1.nodup decodes
          have isOwn : ownId members path = [(attributes.id, path)] := by
            unfold ownId Value.member?
            rw [isId]
            rfl
          rw [Check.idPaths, isOwn, childIdPaths_eq, idPaths]
          rcases inside with ⟨absent, noChildren⟩ | ⟨items, present, decodesItems⟩
          · obtain rfl : children = [] := noChildren
            rw [absent]
            rfl
          · have isMember := Value.mem_of_lookup present
            have orderedItems := (Value.ordered_array items).mp (ordered.2 _ isMember)
            rw [check_node] at clean
            have governed : (nodeShape false).lookup "children" =
                some (.optional, .list (.node false)) := rfl
            have passed := checkMember_eq_nil governed clean
            rw [checkMember_of_present (Or.inr rfl) present] at passed
            have passedItems := checkItems_eq_nil passed
            rw [present]
            refine congrArg _ (itemIdPaths_eq ?_ decodesItems _ 0)
            intro child isChild item isItem isNode
            exact inductionHypothesis child isChild (orderedItems item isItem)
              (passedItems item isItem) isNode
      | _ => exact absurd clean (wrongKind_ne_nil _ _ _)

end Node

/-! ### The warnings of a document -/

namespace Document

/-- The tree of a document stands in its data. -/
theorem layoutTree_of_decode {members : List (String × Value)} {document : Document}
    (distinct : (members.map Prod.fst).Nodup)
    (decodes : codec.decode (.object members) = .ok document) :
    ∃ tree, members.lookup "layoutTree" = some tree ∧
      Node.codec.decode tree = .ok document.layoutTree := by
  obtain ⟨values, found, rfl⟩ := exists_of_map_eq_ok decodes
  obtain ⟨id, version, createdAt, locale, title, description, layoutTree, assets, dataSources,
    theme, metadata, ⟨⟩⟩ := values
  simp only [decodeFields, Outcome.toExcept_eq_ok, Fields.find, Outcome.pair_eq_found] at found
  obtain ⟨-, -, -, -, -, -, foundTree, -⟩ := found
  rcases Field.of_find_eq_found rfl distinct foundTree with
    ⟨-, noDefault⟩ | ⟨tree, present, decodesTree⟩
  · cases noDefault
  · exact ⟨tree, present, decodesTree⟩

/-- The warnings about the ids of clean data depend on the decoded tree alone. -/
theorem uniqueIdViolations_of_decode {value : Value} {document : Document}
    (ordered : value.Ordered) (clean : violations documentRule value = [])
    (decodes : codec.decode value = .ok document) :
    uniqueIdViolations value =
      duplicates [] (document.layoutTree.idPaths "$.layoutTree") := by
  cases value with
  | object members =>
      rw [Value.ordered_object] at ordered
      obtain ⟨tree, present, decodesTree⟩ := layoutTree_of_decode ordered.1.nodup decodes
      have isMember := Value.mem_of_lookup present
      have passed : checkMember (checkersOf nodeShape members) rootPath
          ("layoutTree", .required, .node false) = [] := checkMember_eq_nil rfl clean
      rw [checkMember_of_present (Or.inl rfl) present] at passed
      rw [uniqueIdViolations, Value.member?, present]
      refine congrArg (duplicates []) ?_
      exact Node.idPaths_of_decode (ordered.2 _ isMember) ⟨_, passed⟩ decodesTree _
  | _ => exact absurd clean (wrongKind_ne_nil _ _ _)

end Document

end Wireframe
