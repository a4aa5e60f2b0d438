import Wireframe.Codec.Record

/-!
Contract: what a check reports.

Owns:
- `Violation`, one departure from the rules at a path;
- `Report`, the outcome of a check, and `Rejection`, the violations that block;
- their JSON forms and wording.
-/

namespace Wireframe

open Codec

/-- How grave a violation is. -/
inductive Severity where
  | error
  | warning
deriving DecidableEq

namespace Severity

def all : List Severity := [.error, .warning]

def name : Severity → String
  | .error => "error"
  | .warning => "warning"

end Severity

/-- A departure from a rule. The path starts at `$`; `actual` shows what stands
there. -/
structure Violation where
  rule : String
  severity : Severity
  path : String
  message : String
  actual : Option String
deriving DecidableEq

namespace Violation

def describe (violation : Violation) : String :=
  violation.path ++ ": " ++ violation.message ++
    match violation.actual with
    | some actual => " (got " ++ actual ++ ")"
    | none => ""

def codec : Codec Violation :=
  Codec.record "ValidationViolation"
    (.cons (.needed "rule" .string) <|
      .cons (.needed "severity" (.choice Severity.name Severity.all)) <|
      .cons (.needed "path" .string) <|
      .cons (.needed "message" .string) <|
      .cons (.optional "actual" .string) .nil)
    (fun (rule, severity, path, message, actual, ()) =>
      ⟨rule, severity, path, message, actual⟩)
    (fun violation =>
      (violation.rule, violation.severity, violation.path, violation.message,
        violation.actual, ()))

end Violation

/-- The outcome of a check. -/
structure Report where
  valid : Bool
  violations : List Violation
deriving DecidableEq

namespace Report

def hasErrors (report : Report) : Bool :=
  report.violations.any fun violation => violation.severity == .error

def codec : Codec Report :=
  Codec.record "ValidationReport"
    (.cons (.needed "valid" .boolean) <|
      .cons (.needed "violations" (.list Violation.codec)) .nil)
    (fun (valid, violations, ()) => ⟨valid, violations⟩)
    (fun report => (report.valid, report.violations, ()))

end Report

/-- The violations for which an input is refused. -/
structure Rejection where
  violations : List Violation
deriving DecidableEq

namespace Rejection

def message (rejection : Rejection) : String :=
  let violations := rejection.violations
  s!"validation failed with {violations.length} violation(s): " ++
    "; ".intercalate (violations.map Violation.describe)

def paths (rejection : Rejection) : List String :=
  rejection.violations.map Violation.path

end Rejection

end Wireframe
