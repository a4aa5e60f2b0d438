import Wireframe.Proofs.Document.Ambiguity
import Wireframe.Proofs.Patch.Freshness

/-!
Contract: strict validity survives edits that bring in fresh ids.

Owns:
- sound documents that the strict policy accepts, as those with distinct ids;
- an accepted document after one edit by an accepted patch with fresh ids.

Does not own: which ids an edit brings in and which it leaves.
-/

namespace Wireframe.Document

open Json Codec Check

variable {value : Value} {document : Document} {patch : Patch} {edited : Node}

/-- The strict policy accepts data with distinct ids only. -/
theorem nodup_ids_of_validate (ordered : value.Ordered)
    (accepted : validate .strict value = .ok document) : document.layoutTree.ids.Nodup := by
  have agrees := agreeOnIds_of_validate ordered (validate_lenient_of_strict ordered accepted)
  rw [Node.nodup_ids_iff, ← agrees.refuses, accepted]
  rintro ⟨rejection, refused⟩
  cases refused

/-- Nothing is reported about a sound document with distinct ids. -/
theorem Sound.documentViolations_eq_nil (sound : document.Sound)
    (distinct : document.layoutTree.ids.Nodup) : documentViolations document.toValue = [] := by
  have ordered := sound.toValue_spec.1
  have agrees := agreeOnIds_of_validate ordered sound.validate_toValue
  by_contra violated
  have refused := (refused_strict_iff ordered).mpr violated
  exact Node.nodup_ids_iff.mp distinct (agrees.refuses.mp refused)

theorem Sound.validate_strict_toValue (sound : document.Sound)
    (distinct : document.layoutTree.ids.Nodup) :
    report .strict document.toValue = ⟨true, []⟩ ∧
      validate .strict document.toValue = .ok document := by
  have clean := sound.documentViolations_eq_nil distinct
  have reports : report .strict document.toValue = ⟨true, []⟩ := by
    unfold report
    simp [clean]
  have ordered := sound.toValue_spec.1
  have valid : (report .strict document.toValue).valid = true := by rw [reports]
  rcases (validate_eq_ok_iff ordered).mpr valid with ⟨again, accepted⟩
  have leniently := validate_lenient_of_strict ordered accepted
  rw [sound.validate_toValue] at leniently
  cases leniently
  exact ⟨reports, accepted⟩

/-- A document that the strict policy accepts stays accepted, with nothing reported
about it, when an accepted patch is applied whose ids are fresh: different from each
other and from those of the nodes that the edit leaves. -/
theorem strict_validity_kept (ordered : value.Ordered)
    (opened : validate .strict value = .ok document) (accepted : patch.Accepted)
    (applied : patch.apply document.layoutTree = .ok edited)
    (fresh : patch.Fresh document.layoutTree) :
    ∃ patched, document.patched [patch] = .ok patched ∧
      patched = { document with layoutTree := edited } ∧
      report .strict patched.toValue = ⟨true, []⟩ ∧
      validate .strict patched.toValue = .ok patched := by
  have sound := (sound_of_validate ordered opened).2
  have soundTree : edited.Sound := Patch.sound_apply accepted.sound sound.layoutTree applied
  have soundEdited : Document.Sound { document with layoutTree := edited } :=
    { sound with layoutTree := soundTree }
  have distinct : edited.ids.Nodup :=
    Patch.nodup_ids_of_apply fresh (nodup_ids_of_validate ordered opened) applied
  refine ⟨_, ?_, rfl, soundEdited.validate_strict_toValue distinct⟩
  rw [patched, Patch.applyAll_singleton, applied]
  rfl

/-- A page with a card that holds a text, and a text behind it. -/
def cards : Value :=
  .object [("id", .string "d"), ("layoutTree", .object [
    ("children", .array [
      .object [("children", .array [.object [("id", .string "inner"), ("type", .string "text")]]),
        ("id", .string "card"), ("type", .string "card")],
      .object [("id", .string "last"), ("type", .string "text")]]),
    ("id", .string "page"), ("type", .string "page")])]

def cardsTree : Node :=
  .mk { id := "page", kind := .page }
    [.mk { id := "card", kind := .card } [.mk { id := "inner", kind := .text } []],
      .mk { id := "last", kind := .text } []]

/-- The card takes the id of its text and gets a new text with the id that it had. -/
def exchange : Value :=
  .object [("op", .string "update"), ("payload", .object [
    ("children", .array [.object [("id", .string "card"), ("type", .string "text")]]),
    ("id", .string "inner")]), ("targetId", .string "card")]

def exchanging : Patch :=
  .update "card" { id := some "inner", children := some [.mk { id := "card", kind := .text } []] }

/-- Both ids that are brought in stood at nodes that the edit does not leave. -/
theorem fresh_exchanging : exchanging.Fresh cardsTree where
  distinct := by decide
  unused := by
    intro target path first isLeft id isBrought
    have located : cardsTree.locate? exchanging.targetId = some [0] := rfl
    obtain rfl := first.unique (Node.locate?_eq_some_iff.mp located)
    rintro ⟨node, present, bears⟩
    have isPlace := Node.mem_places.mpr present
    have ids : exchanging.brought = ["inner", "card"] := rfl
    rw [ids] at isBrought
    simp only [cardsTree, Node.places, Node.placesBelow, List.map_cons, List.map_nil,
      List.append_nil, List.nil_append, List.cons_append, List.mem_cons, List.not_mem_nil,
      or_false, Prod.mk.injEq] at isPlace
    rcases isPlace with ⟨rfl, rfl⟩ | ⟨rfl, rfl⟩ | ⟨rfl, rfl⟩ | ⟨rfl, rfl⟩
    · simp [Node.id, ← bears] at isBrought
    · exact absurd isLeft (by decide)
    · exact absurd isLeft (by decide)
    · simp [Node.id, ← bears] at isBrought

theorem strict_validity_kept_exchange :
    ∃ document edited patched, validate .strict cards = .ok document ∧
      validatePatch exchange = .ok exchanging ∧
      exchanging.apply document.layoutTree = .ok edited ∧
      exchanging.Fresh document.layoutTree ∧
      document.patched [exchanging] = .ok patched ∧
      report .strict patched.toValue = ⟨true, []⟩ ∧
      validate .strict patched.toValue = .ok patched := by
  have orderedCards : cards.Ordered := by
    simp only [cards, Value.Ascending, Value.Ordered, Value.OrderedItems, Value.OrderedMembers]
    decide
  have orderedExchange : exchange.Ordered := by
    simp only [exchange, Value.Ascending, Value.Ordered, Value.OrderedItems, Value.OrderedMembers]
    decide
  have reads : validatePatch exchange = .ok exchanging := rfl
  have opens : (validate .strict cards).map Document.layoutTree = .ok cardsTree := rfl
  rcases exists_of_map_eq_ok opens with ⟨document, opened, isTree⟩
  have fresh : exchanging.Fresh document.layoutTree := isTree ▸ fresh_exchanging
  have applies : exchanging.apply document.layoutTree = .ok (.mk { id := "page", kind := .page }
      [.mk { id := "inner", kind := .card } [.mk { id := "card", kind := .text } []],
        .mk { id := "last", kind := .text } []]) := by
    rw [isTree]
    rfl
  rcases strict_validity_kept orderedCards opened (.alone orderedExchange reads) applies fresh with
    ⟨patched, isPatched, -, reports, accepted⟩
  exact ⟨document, _, patched, opened, reads, applies, fresh, isPatched, reports, accepted⟩

end Wireframe.Document
