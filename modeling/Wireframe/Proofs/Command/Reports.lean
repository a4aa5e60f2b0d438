import Wireframe.Command.Run
import Wireframe.Proofs.Check.Parts
import Wireframe.Proofs.Json.Compact

/-!
Contract: what is printed about violations, read back.

Owns:
- the shape of violations and of reports in data, which agrees with their codecs;
- the report in the output of a command, and the violations that a failure prints.

Does not own: which violations a command prints.
-/

namespace Wireframe

open Json Codec Check

/-! ### Reports in data -/

namespace Check

/-- The members of a violation. -/
def violationRule : Rule :=
  .object [
    required "rule" .text,
    required "severity" (.oneOf (Severity.all.map Severity.name)),
    required "path" .text,
    required "message" .text,
    optional "actual" .text]

/-- The members of a report. -/
def reportRule : Rule :=
  .object [
    required "valid" .flag,
    required "violations" (.list violationRule)]

end Check

section Agreement

variable {depth : Nat}

theorem Severity.agrees :
    Agrees depth (.oneOf (Severity.all.map Severity.name))
      (.choice Severity.name Severity.all) fun _ => True :=
  agrees_oneOf Severity.name Severity.all fun severity => by cases severity <;> rfl

theorem Violation.agrees : Agrees depth violationRule Violation.codec fun _ => True := by
  apply Agrees.congr
  · apply agrees_record "ValidationViolation" (by decide) (by decide) (by decide) (fun _ => rfl)
      (fun _ => rfl)
    intro inner _
    exact .cons (fieldAgrees_needed agrees_text rfl) <|
      .cons (fieldAgrees_needed Severity.agrees rfl) <|
      .cons (fieldAgrees_needed agrees_text rfl) <|
      .cons (fieldAgrees_needed agrees_text rfl) <|
      .cons (fieldAgrees_optional agrees_text rfl) .nil
  · intro violation
    simp

theorem Violation.agrees_list :
    Agrees depth (.list violationRule) (.list Violation.codec) fun _ => True := by
  apply Agrees.congr
  · exact Check.agrees_list fun _ _ => Violation.agrees
  · intro violations
    simp

theorem Report.agrees : Agrees depth reportRule Report.codec fun _ => True := by
  apply Agrees.congr
  · apply agrees_record "ValidationReport" (by decide) (by decide) (by decide) (fun _ => rfl)
      (fun _ => rfl)
    intro inner _
    exact .cons (fieldAgrees_needed agrees_flag rfl) <|
      .cons (fieldAgrees_needed Violation.agrees_list rfl) .nil
  · intro report
    simp

end Agreement

/-- Violations are not nested, so that a list of them is shallow. -/
theorem Violation.depth_encodeAll (violations : List Violation) :
    ((Codec.list Violation.codec).encode violations).depth ≤ 2 := by
  change (Value.array (violations.map Violation.codec.encode)).depth ≤ 2
  rw [Value.depth_array_le_succ, List.forall_mem_map]
  rintro ⟨rule, severity, path, message, actual⟩ -
  cases actual <;> exact Nat.le_refl 1

theorem Report.depth_encode (report : Report) : (Report.codec.encode report).depth ≤ 3 := by
  change (Value.object [("valid", _), ("violations", _)]).depth ≤ 3
  rw [Value.depth_object_le_succ]
  simp only [List.forall_mem_cons]
  exact ⟨Nat.zero_le 2, Violation.depth_encodeAll report.violations, List.forall_mem_nil _⟩

theorem Violation.decode_encodeAll (violations : List Violation) :
    (Codec.list Violation.codec).decode
      ((Codec.list Violation.codec).encode violations).sortKeys = .ok violations :=
  Violation.agrees_list.restores violations trivial (Violation.depth_encodeAll violations)

theorem Report.decode_encode (report : Report) :
    Report.codec.decode (Report.codec.encode report).sortKeys = .ok report :=
  Report.agrees.restores report trivial (Report.depth_encode report)

/-! ### Outcomes -/

namespace Command

/-- The violations that an object lists. -/
def violationsIn? : Value → Option (List Violation)
  | .object members =>
      (Value.member? "violations" members).bind fun value =>
        ((Codec.list Violation.codec).decode value).toOption
  | _ => none

namespace Outcome

/-- The data that a command printed. -/
def value? (outcome : Outcome) : Option Value :=
  (parse outcome.output).toOption

/-- The report that a command printed. -/
def report? (outcome : Outcome) : Option Report :=
  outcome.value?.bind fun value => (Report.codec.decode value).toOption

/-- The violations that a command printed beside its error message. -/
def violations? (outcome : Outcome) : Option (List Violation) :=
  outcome.value?.bind violationsIn?

end Outcome

section Printed

variable {outcome : Outcome} {value : Value}

theorem value?_of_prints (fits : value.depth ≤ nestingLimit)
    (prints : outcome.output = value.pretty ++ "\n") : outcome.value? = some value.sortKeys := by
  rw [Outcome.value?, prints]
  exact congrArg Except.toOption (parse_line (readsAs_pretty value fits 0))

theorem value?_of_prints_compact (fits : value.depth ≤ nestingLimit)
    (prints : outcome.output = value.compact ++ "\n") :
    outcome.value? = some value.sortKeys := by
  rw [Outcome.value?, prints]
  exact congrArg Except.toOption (parse_line (readsAs_compact value fits))

theorem report?_of_prints {report : Report}
    (prints : outcome.output = (Report.codec.encode report).pretty ++ "\n") :
    outcome.report? = some report := by
  have fits : (Report.codec.encode report).depth ≤ nestingLimit :=
    (Report.depth_encode report).trans (by decide)
  rw [Outcome.report?, value?_of_prints fits prints, Option.bind_some, Report.decode_encode]
  rfl

/-! ### Failures -/

namespace Failure

theorem depth_report_le (failure : Failure) : failure.report.depth ≤ nestingLimit := by
  refine Nat.le_trans ?_ (by decide : 3 ≤ nestingLimit)
  cases failure with
  | unable message => exact (by decide : 1 ≤ 3)
  | refused message violations =>
      unfold report
      rw [Value.depth_object_le_succ]
      intro member isMember
      rcases List.mem_append.mp isMember with isFixed | isViolations
      · simp only [List.mem_cons, List.not_mem_nil, or_false] at isFixed
        rcases isFixed with rfl | rfl <;> exact Nat.zero_le 2
      · cases violations with
        | none => exact absurd isViolations List.not_mem_nil
        | some violations =>
            obtain rfl := List.mem_singleton.mp isViolations
            exact Violation.depth_encodeAll violations

/-- A failure prints its report, with the keys in order, and no other data. -/
theorem value?_outcome (failure : Failure) :
    failure.outcome.value? = some failure.report.sortKeys := by
  have fits := (Value.depth_sortKeys_le failure.report).trans failure.depth_report_le
  rw [← failure.report.sortKeys_sortKeys]
  cases failure with
  | unable message => exact value?_of_prints_compact fits rfl
  | refused message violations => exact value?_of_prints fits rfl

/-- A refusal prints the violations that it is for. -/
theorem violations?_refusedFor (rejection : Rejection) :
    (refusedFor rejection).outcome.violations? = some rejection.violations := by
  let members : List (String × Value) := [("error", .string rejection.message),
    ("success", .bool false),
    ("violations", (Codec.list Violation.codec).encode rejection.violations)]
  have inOrder : Value.Ascending (members.map fun member => (member.1, member.2.sortKeys)) :=
    Value.ascending_iff_keys.mpr (by simp only [members, List.map]; decide)
  have isReport : (refusedFor rejection).report = .object members := rfl
  rw [Outcome.violations?, value?_outcome, Option.bind_some, isReport, Value.sortKeys_object,
    Value.orderMembers_of_ascending inOrder]
  change ((Codec.list Violation.codec).decode
    ((Codec.list Violation.codec).encode rejection.violations).sortKeys).toOption = _
  rw [Violation.decode_encodeAll]
  rfl

end Failure

end Printed

end Command

end Wireframe
