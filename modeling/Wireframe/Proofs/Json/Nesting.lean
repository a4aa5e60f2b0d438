import Wireframe.Proofs.Json.Compact
import Wireframe.Proofs.Json.Parsed

/-!
Contract: reading with more depth changes nothing that was read with less.

Owns:
- `Extends`, agreement of two scanners wherever the first one succeeds;
- values read with some depth, which any greater depth reads in the same way;
- what the text of a value is read as, if it is read at all.
-/

namespace Wireframe.Json

open Scanner

/-- The second scanner yields whatever the first one does. -/
def Extends {ε α : Type} (scanner wider : Scanner ε α) : Prop :=
  ∀ cursor read, scanner cursor = .ok read → wider cursor = .ok read

namespace Extends

variable {ε α β : Type} {scanner wider : Scanner ε α}

theorem refl (scanner : Scanner ε α) : Extends scanner scanner :=
  fun _ _ yields => yields

theorem bind {next widerNext : α → Scanner ε β} (first : Extends scanner wider)
    (goesOn : ∀ value, Extends (next value) (widerNext value)) :
    Extends (scanner >>= next) (wider >>= widerNext) := by
  intro cursor last yields
  change (scanner cursor).bind (fun read => next read.1 read.2) = _ at yields
  change (wider cursor).bind (fun read => widerNext read.1 read.2) = _
  cases reads : scanner cursor with
  | error failure =>
      rw [reads] at yields
      exact absurd yields nofun
  | ok read =>
      rw [reads] at yields
      rw [first cursor read reads]
      exact goesOn read.1 read.2 last yields

theorem after {next widerNext : α → Scanner ε β}
    (goesOn : ∀ value, Extends (next value) (widerNext value)) :
    Extends (scanner >>= next) (scanner >>= widerNext) :=
  bind (refl scanner) goesOn

/-- Failing, a scanner is extended by every other. -/
theorem failNext {fault : Fault} {wider : Scanner Failure α} :
    Extends (Scanner.failNext fault) wider :=
  fun _ _ yields => absurd yields nofun

theorem collect {step widerStep : Bool → Scanner ε (Option α)}
    (steps : ∀ first, Extends (step first) (widerStep first)) (bound : Nat) (first : Bool) :
    Extends (Scanner.collect step bound first) (Scanner.collect widerStep bound first) := by
  induction bound generalizing first with
  | zero => exact refl _
  | succ bound inductionHypothesis =>
      refine bind (steps first) fun item => ?_
      cases item with
      | none => exact refl _
      | some item => exact bind (inductionHypothesis false) fun _ => refl _

theorem collectAll {step widerStep : Bool → Scanner ε (Option α)}
    (steps : ∀ first, Extends (step first) (widerStep first)) :
    Extends (Scanner.collectAll step) (Scanner.collectAll widerStep) :=
  fun cursor => collect steps _ true cursor

end Extends

section Parts

variable {item wider : Scanner Failure Value}

theorem extends_list (items : Extends item wider) : Extends (list item) (list wider) := by
  refine .after fun _ => .bind (.collectAll fun first => ?_) fun _ => .refl _
  refine .after fun goesOn => ?_
  split
  · exact .bind items fun _ => .refl _
  · exact .refl _

theorem extends_object (items : Extends item wider) : Extends (object item) (object wider) := by
  refine .after fun _ => .bind (.collectAll fun first => ?_) fun _ => .refl _
  refine .after fun goesOn => ?_
  split
  · exact .after fun _ => .after fun _ => .after fun _ => .bind items fun _ => .refl _
  · exact .refl _

end Parts

theorem extends_value {depth deeper : Nat} (atMost : depth ≤ deeper) :
    Extends (Scanner.value depth) (Scanner.value deeper) := by
  induction depth generalizing deeper with
  | zero =>
      unfold Scanner.value
      refine .after fun char => ?_
      split
      · exact .failNext
      · exact .failNext
      · exact .refl _
  | succ depth inductionHypothesis =>
      obtain ⟨deeper, rfl⟩ : ∃ less, deeper = less + 1 := ⟨deeper - 1, by omega⟩
      have inside := inductionHypothesis (Nat.le_of_succ_le_succ atMost)
      unfold Scanner.value
      refine .after fun char => ?_
      split
      · exact extends_list inside
      · exact extends_object inside
      · exact .refl _

/-- If the indented text of a value is read at all, it is as that value with its keys
in order: a scanner with enough depth reads nothing else, and so no other does. -/
theorem eq_of_parse_pretty {value parsed : Value} (parses : parse value.pretty = .ok parsed) :
    parsed = value.sortKeys := by
  have wider : Extends (wholeText nestingLimit) (wholeText (max nestingLimit value.depth)) :=
    .bind (extends_value (Nat.le_max_left _ _)) fun _ => .refl _
  obtain ⟨next, reads⟩ := yields_wholeText (Nat.le_max_right nestingLimit value.depth) 0
  rw [List.append_nil] at reads
  change ((wholeText nestingLimit) (Cursor.start value.pretty)).map Prod.fst = _ at parses
  rw [Cursor.start, Value.pretty, String.toList_ofList] at parses
  cases readsHere : wholeText nestingLimit ⟨value.prettyChars 0, 0⟩ with
  | error failure =>
      rw [readsHere] at parses
      cases parses
  | ok read =>
      rw [readsHere] at parses
      have same := (wider _ _ readsHere).symm.trans reads
      rw [← Except.ok.inj parses, Except.ok.inj same]

end Wireframe.Json
