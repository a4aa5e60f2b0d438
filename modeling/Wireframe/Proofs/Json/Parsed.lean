import Wireframe.Json.Parser
import Wireframe.Proofs.Json.Depth

/-!
Contract: what every parsed value is like, whatever text it comes from.

Owns:
- `Ensures`: every value that a scanner yields has a property;
- the nesting of parsed values, which stays within the limit, and their order of
  keys.
-/

namespace Wireframe.Json

open Scanner

/-- Every value that the scanner yields has the property. -/
def Ensures {ε α : Type} (scanner : Scanner ε α) (property : α → Prop) : Prop :=
  ∀ cursor value next, scanner cursor = .ok (value, next) → property value

namespace Ensures

variable {ε α β : Type} {scanner : Scanner ε α} {property : α → Prop} {result : β → Prop}

theorem trivial (scanner : Scanner ε α) : Ensures scanner fun _ => True :=
  fun _ _ _ _ => True.intro

theorem pure {value : α} (holds : property value) :
    Ensures (pure value : Scanner ε α) property := by
  intro cursor other next yields
  obtain ⟨rfl, -⟩ := Prod.mk.inj (Except.ok.inj yields)
  exact holds

theorem bind {next : α → Scanner ε β} (first : Ensures scanner property)
    (goesOn : ∀ value, property value → Ensures (next value) result) :
    Ensures (scanner >>= next) result := by
  intro cursor value last yields
  change (scanner cursor).bind (fun read => next read.1 read.2) = _ at yields
  cases reads : scanner cursor with
  | error failure =>
      rw [reads] at yields
      exact absurd yields nofun
  | ok read =>
      rw [reads] at yields
      exact goesOn read.1 (first cursor read.1 read.2 reads) read.2 value last yields

/-- Whatever comes before the last scanner, that one decides. -/
theorem after {next : α → Scanner ε β} (goesOn : ∀ value, Ensures (next value) result) :
    Ensures (scanner >>= next) result :=
  (trivial scanner).bind fun value _ => goesOn value

theorem run' {cursor : Cursor} {value : α} (ensures : Ensures scanner property)
    (runs : scanner.run' cursor = .ok value) : property value := by
  change (scanner cursor).map Prod.fst = _ at runs
  cases reads : scanner cursor with
  | error failure =>
      rw [reads] at runs
      exact absurd runs nofun
  | ok read =>
      rw [reads] at runs
      exact Except.ok.inj runs ▸ ensures cursor read.1 read.2 reads

theorem failNext {fault : Fault} :
    Ensures (Scanner.failNext fault : Scanner Failure β) result :=
  fun _ _ _ yields => absurd yields nofun

theorem collect {step : Bool → Scanner ε (Option α)}
    (steps : ∀ first, Ensures (step first) fun read => ∀ value ∈ read, property value)
    (bound : Nat) (first : Bool) :
    Ensures (Scanner.collect step bound first) fun values => ∀ value ∈ values, property value := by
  induction bound generalizing first with
  | zero => exact pure nofun
  | succ bound inductionHypothesis =>
      refine (steps first).bind fun read holds => ?_
      cases read with
      | none => exact pure nofun
      | some value =>
          refine (inductionHypothesis false).bind fun values others => ?_
          exact pure (List.forall_mem_cons.mpr ⟨holds value rfl, others⟩)

theorem collectAll {step : Bool → Scanner ε (Option α)}
    (steps : ∀ first, Ensures (step first) fun read => ∀ value ∈ read, property value) :
    Ensures (Scanner.collectAll step) fun values => ∀ value ∈ values, property value :=
  fun cursor => collect steps _ true cursor

end Ensures

/-- Values as they come out of a text: keys in order, and not nested too deeply. -/
structure Parsed (limit : Nat) (value : Value) : Prop where
  ordered : value.Ordered
  depth_le : value.depth ≤ limit

theorem parsed_of_flat {value : Value} (limit : Nat) (flat : value.depth = 0)
    (ordered : value.Ordered) : Parsed limit value :=
  ⟨ordered, by omega⟩

theorem parsed_number (limit : Nat) (token : NumberToken) : Parsed limit token.toValue := by
  cases token with
  | integer number => exact parsed_of_flat limit rfl True.intro
  | float number => exact parsed_of_flat limit rfl True.intro

theorem ensures_scalar (limit : Nat) : Ensures scalar (Parsed limit) := by
  unfold scalar
  refine Ensures.after fun next => ?_
  split
  · exact .after fun _ => .after fun _ => .pure (parsed_of_flat limit rfl True.intro)
  · exact .after fun _ => .after fun _ => .pure (parsed_of_flat limit rfl True.intro)
  · exact .after fun _ => .after fun _ => .pure (parsed_of_flat limit rfl True.intro)
  · exact .after fun _ => .after fun _ => .pure (parsed_number limit _)
  · exact .after fun _ => .after fun _ => .pure (parsed_of_flat limit rfl True.intro)
  · split
    · exact .after fun _ => .pure (parsed_number limit _)
    · exact .failNext
  · exact .failNext

section Inside

variable {limit : Nat} {item : Scanner Failure Value}

theorem ensures_list (items : Ensures item (Parsed limit)) :
    Ensures (list item) (Parsed (limit + 1)) := by
  have steps (first : Bool) :
      Ensures (listItem item first) fun read => ∀ value ∈ read, Parsed limit value := by
    refine .after fun goesOn => ?_
    split
    · exact items.bind fun value parsed => .pure (by simpa using parsed)
    · exact .pure nofun
  refine .after fun _ => (Ensures.collectAll steps).bind fun values parsed => ?_
  refine .after fun _ => .pure ⟨?_, ?_⟩
  · exact (Value.ordered_array values).mpr fun value isMember => (parsed value isMember).ordered
  · exact (Value.depth_array_le_succ values limit).mpr fun value isMember =>
      (parsed value isMember).depth_le

theorem ensures_object (items : Ensures item (Parsed limit)) :
    Ensures (object item) (Parsed (limit + 1)) := by
  have steps (first : Bool) :
      Ensures (objectMember item first) fun read => ∀ member ∈ read, Parsed limit member.2 := by
    refine .after fun goesOn => ?_
    split
    · refine .after fun _ => .after fun key => .after fun _ => items.bind fun value parsed => ?_
      exact .pure (by simpa using parsed)
    · exact .pure nofun
  refine .after fun _ => (Ensures.collectAll steps).bind fun members parsed => ?_
  refine .after fun _ => .pure ⟨?_, ?_⟩
  · refine (Value.ordered_object _).mpr ⟨Value.ascending_orderMembers members, ?_⟩
    intro member isMember
    exact (parsed member (Value.mem_of_mem_orderMembers isMember)).ordered
  · refine (Value.depth_object_le_succ _ limit).mpr fun member isMember => ?_
    exact (parsed member (Value.mem_of_mem_orderMembers isMember)).depth_le

end Inside

theorem ensures_value (limit : Nat) : Ensures (Scanner.value limit) (Parsed limit) := by
  induction limit with
  | zero =>
      unfold Scanner.value
      refine .after fun next => ?_
      split
      · exact .failNext
      · exact .failNext
      · exact ensures_scalar 0
  | succ limit inductionHypothesis =>
      unfold Scanner.value
      refine .after fun next => ?_
      split
      · exact ensures_list inductionHypothesis
      · exact ensures_object inductionHypothesis
      · exact ensures_scalar (limit + 1)

/-- Parsed values hold each key once, in order, and respect the nesting limit. -/
theorem parsed_of_parse {text : String} {value : Value} (parses : parse text = .ok value) :
    Parsed nestingLimit value := by
  refine Ensures.run' ?_ parses
  exact (ensures_value nestingLimit).bind fun value parsed => .after fun _ => .pure parsed

end Wireframe.Json
