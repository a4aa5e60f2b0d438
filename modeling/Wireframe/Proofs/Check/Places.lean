import Mathlib.Data.List.Nodup
import Wireframe.Check.Rule
import Wireframe.Proofs.Check.Walk
import Wireframe.Proofs.Json.Numerals

/-!
Contract: the places at which violations are reported.

Owns:
- `Inside`, when a path names something in the value at a place, and that nothing is
  inside two members or two items of one value;
- whatever is found in a value is inside the path at which it is checked;
- `Tidy`, rules whose members have different names without separators.

Paths are texts. Keys of free maps may hold separators, so that a path alone does not
tell where its parts end; names of members may not.
-/

namespace Wireframe.Check

open Json

/-! ### Paths -/

/-- What separates the parts of a path. -/
def isSeparator (char : Char) : Bool :=
  char == '.' || char == '['

/-- The path is the place, or goes on behind it with a member or an item. -/
def Inside (place path : String) : Prop :=
  ∃ rest : String, path = place ++ rest ∧ Stops (fun char => !isSeparator char) rest.toList

/-- A name that no path splits. -/
def Unsplit (name : String) : Prop :=
  ∀ char ∈ name.toList, isSeparator char = false

/-- The characters are gone through one by one: there is no deciding for all
characters at once. -/
instance : DecidablePred Unsplit := fun name =>
  List.decidableBAll (fun char => isSeparator char = false) name.toList

section Inside

variable {place inner path : String}

theorem inside_self (place : String) : Inside place place :=
  ⟨"", by simp, by simp [Stops]⟩

theorem Inside.trans (outer : Inside place inner) (inside : Inside inner path) :
    Inside place path := by
  rcases outer with ⟨first, rfl, firstStops⟩
  rcases inside with ⟨second, rfl, secondStops⟩
  refine ⟨first ++ second, String.append_assoc .., ?_⟩
  rw [String.toList_append]
  cases chars : first.toList with
  | nil => exact secondStops
  | cons char rest => simpa [Stops, chars] using firstStops

theorem inside_memberPath (place key : String) : Inside place (memberPath place key) :=
  ⟨"." ++ key, by simp [memberPath, String.append_assoc], by simp [Stops, isSeparator]⟩

theorem inside_itemPath (place : String) (index : Nat) : Inside place (itemPath place index) :=
  ⟨"[" ++ (toString index ++ "]"), by simp [itemPath, String.append_assoc],
    by simp [Stops, isSeparator]⟩

/-- Nothing is inside two members of one object. -/
theorem name_unique {key other : String} (unsplit : Unsplit key) (unsplitOther : Unsplit other)
    (inside : Inside (memberPath place key) path)
    (insideOther : Inside (memberPath place other) path) : key = other := by
  rcases inside with ⟨rest, rfl, stops⟩
  rcases insideOther with ⟨restOther, same, stopsOther⟩
  simp only [memberPath, String.append_assoc, String.append_right_inj] at same
  have chars : key.toList ++ rest.toList = other.toList ++ restOther.toList := by
    simpa using congrArg String.toList same
  -- Each name is what stands before the first separator of the rest.
  have isKey : (key.toList ++ rest.toList).takeWhile _ = key.toList :=
    takeWhile_append_of_stops (fun char isMember => by simp [unsplit char isMember]) stops
  have isOther : (other.toList ++ restOther.toList).takeWhile _ = other.toList :=
    takeWhile_append_of_stops (fun char isMember => by simp [unsplitOther char isMember])
      stopsOther
  rw [← String.toList_inj, ← isKey, chars, isOther]

/-- Nothing is inside two items of one list. -/
theorem index_unique {index other : Nat} (inside : Inside (itemPath place index) path)
    (insideOther : Inside (itemPath place other) path) : index = other := by
  rcases inside with ⟨rest, rfl, -⟩
  rcases insideOther with ⟨restOther, same, -⟩
  simp only [itemPath, String.append_assoc, String.append_right_inj] at same
  have chars : Nat.toDigits 10 index ++ ']' :: rest.toList =
      Nat.toDigits 10 other ++ ']' :: restOther.toList := by
    simpa [Nat.toString_eq_ofList_toDigits] using congrArg String.toList same
  have closes : Char.isDigit ']' = false := by decide
  have isIndex : (Nat.toDigits 10 index ++ ']' :: rest.toList).takeWhile _ = _ :=
    takeWhile_append_of_stops (digits_toDigits index) (stops_cons.mpr closes)
  have isOther : (Nat.toDigits 10 other ++ ']' :: restOther.toList).takeWhile _ = _ :=
    takeWhile_append_of_stops (digits_toDigits other) (stops_cons.mpr closes)
  rw [← ofDigits_toDigits index, ← isIndex, chars, isOther, ofDigits_toDigits]

end Inside

/-! ### Where violations are -/

/-- The names under which a member is reported. -/
def namesOf : String × Need × Rule → List String
  | (key, .insteadOf other, _) => [key, other]
  | (key, _, _) => [key]

theorem mem_namesOf_self (key : String) (need : Need) (rule : Rule) :
    key ∈ namesOf (key, need, rule) := by
  cases need <;> simp [namesOf]

/-- Different members are reported under different names, none of which a path splits. -/
def Tidy (rules : List (String × Need × Rule)) : Prop :=
  (rules.flatMap namesOf).Nodup ∧ ∀ name ∈ rules.flatMap namesOf, Unsplit name

instance : DecidablePred Tidy := fun rules =>
  inferInstanceAs (Decidable ((rules.flatMap namesOf).Nodup ∧
    ∀ name ∈ rules.flatMap namesOf, Unsplit name))

/-- A name belongs to one member. -/
theorem Tidy.unique {rules : List (String × Need × Rule)} (tidy : Tidy rules)
    {member other : String × Need × Rule} (isMember : member ∈ rules) (isOther : other ∈ rules)
    {name : String} (isName : name ∈ namesOf member) (isOtherName : name ∈ namesOf other) :
    member = other := by
  by_contra different
  have symmetric : Std.Symm (Function.onFun List.Disjoint namesOf) := ⟨fun _ _ => List.Disjoint.symm⟩
  exact (List.nodup_flatMap.mp tidy.1).2.forall isMember isOther different isName isOtherName

theorem Tidy.nodup {rules : List (String × Need × Rule)} (tidy : Tidy rules) : rules.Nodup := by
  apply (List.nodup_flatMap.mp tidy.1).2.imp
  rintro ⟨key, need, rule⟩ other disjoint rfl
  exact disjoint (mem_namesOf_self key need rule) (mem_namesOf_self key need rule)

theorem Tidy.unsplit {rules : List (String × Need × Rule)} (tidy : Tidy rules)
    {member : String × Need × Rule} (isMember : member ∈ rules) {name : String}
    (isName : name ∈ namesOf member) : Unsplit name :=
  tidy.2 name (List.mem_flatMap.mpr ⟨member, isMember, isName⟩)

/-- No path is inside two members. -/
theorem Tidy.unique_of_inside {rules : List (String × Need × Rule)} (tidy : Tidy rules)
    {member other : String × Need × Rule} (isMember : member ∈ rules) (isOther : other ∈ rules)
    {name nameOther : String} (isName : name ∈ namesOf member)
    (isNameOther : nameOther ∈ namesOf other) {place path : String}
    (inside : Inside (memberPath place name) path)
    (insideOther : Inside (memberPath place nameOther) path) : member = other := by
  have sameName := name_unique (tidy.unsplit isMember isName) (tidy.unsplit isOther isNameOther)
    inside insideOther
  exact tidy.unique isMember isOther isName (sameName ▸ isNameOther)

section Found

variable {shape : Bool → List (String × Need × Rule)}

/-- What is found about a member is inside one of the names of the member. -/
theorem inside_of_mem_checkMember {members : List (String × Value)}
    (each : ∀ member ∈ members, ∀ rule path, ∀ found ∈ check shape member.2 rule path,
      Inside path found.path)
    {path : String} {member : String × Need × Rule} {found : Violation}
    (isFound : found ∈ checkMember (checkersOf shape members) path member) :
    ∃ name ∈ namesOf member, Inside (memberPath path name) found.path := by
  rcases exists_memberFinds shape members member with ⟨report, isReport, finds⟩
  rw [isReport] at isFound
  cases finds with
  | nothing => simp at isFound
  | @missing key need rule =>
      rw [List.mem_singleton] at isFound
      exact ⟨key, mem_namesOf_self key need rule, isFound ▸ inside_self _⟩
  | @present key need rule value present =>
      exact ⟨key, mem_namesOf_self key need rule,
        each _ (Value.mem_of_lookup present) rule _ found isFound⟩
  | @instead key other rule value present =>
      exact ⟨other, by simp [namesOf], each _ (Value.mem_of_lookup present) rule _ found isFound⟩
  | @conflict key other rule value present =>
      rw [List.mem_append, List.mem_singleton] at isFound
      rcases isFound with isOwn | isConflict
      · exact ⟨key, by simp [namesOf], each _ (Value.mem_of_lookup present) rule _ found isOwn⟩
      · exact ⟨other, by simp [namesOf], isConflict ▸ inside_self _⟩

/-- What is found in a value is inside the path at which the value stands. -/
theorem inside_of_mem_check (value : Value) (rule : Rule) :
    ∀ path, ∀ found ∈ check shape value rule path, Inside path found.path := by
  induction value, rule using check_induction shape with
  | nothing => simp
  | here value rule message actual =>
      intro path found isFound
      rw [List.mem_singleton] at isFound
      exact isFound ▸ inside_self path
  | items inside rule item _ inductionHypothesis =>
      intro path found isFound
      simp only [checkItems_eq_flatMap, List.mem_flatMap] at isFound
      rcases isFound with ⟨entry, isEntry, isFound⟩
      exact (inside_itemPath path entry.2).trans
        (inductionHypothesis entry.1 (List.fst_mem_of_mem_zipIdx isEntry) item _ found isFound)
  | entries members entry inductionHypothesis =>
      intro path found isFound
      rcases List.mem_flatMap.mp isFound with ⟨member, isMember, isFound⟩
      exact (inside_memberPath path member.1).trans
        (inductionHypothesis member isMember entry _ found isFound)
  | members members rule rules _ inductionHypothesis =>
      intro path found isFound
      rcases List.mem_flatMap.mp isFound with ⟨member, -, isFound⟩
      rcases inside_of_mem_checkMember inductionHypothesis isFound with ⟨name, -, below⟩
      exact (inside_memberPath path name).trans below

end Found

end Wireframe.Check
