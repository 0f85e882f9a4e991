import Lectern.Check.Diagnostic
import Lectern.Json.Basic

/-!
# Reports

The diagnostics of one deck, in the order in which the checks found them.
-/

namespace Lectern.Check

/-- The diagnostics of a deck. -/
structure Report where
  diagnostics : List Diagnostic
  deriving DecidableEq

namespace Report

/-- The report without diagnostics. -/
def empty : Report := ⟨[]⟩

/-- The report with one more diagnostic at its end. -/
def push (report : Report) (diagnostic : Diagnostic) : Report :=
  ⟨report.diagnostics ++ [diagnostic]⟩

/-- The number of diagnostics of a severity. -/
def count (report : Report) (severity : Severity) : Nat :=
  report.diagnostics.countP fun diagnostic => diagnostic.severity = severity

/-- The number of errors. -/
def errorCount (report : Report) : Nat := report.count .error

/-- The number of warnings. -/
def warningCount (report : Report) : Nat := report.count .warning

/-- Whether there is an error. -/
def hasErrors (report : Report) : Bool := 0 < report.errorCount

/-- Whether the deck passes; a strict check lets no diagnostic pass. -/
def passed (report : Report) (strict : Bool) : Bool :=
  if strict then report.diagnostics = [] else !report.hasErrors

/-- The greatest severity of the report. -/
def worst? (report : Report) : Option Severity :=
  match report.diagnostics with
  | [] => none
  | first :: rest => some ((rest.map Diagnostic.severity).foldl Severity.max first.severity)

/-- The wording of all findings, in order. -/
def messages (report : Report) : List Text := report.diagnostics.map fun d => d.finding.message

end Report

/-- A location as a tree of values. -/
def Location.toJson : Location → Json
  | .document => .object [("kind", .text "document")]
  | .header => .object [("kind", .text "header")]
  | .scene index title =>
    .object [("kind", .text "scene"), ("index", .number index), ("title", .text title)]
  | .element sceneTitle position typeName =>
    .object [("kind", .text "element"), ("scene", .text sceneTitle), ("position", .number position),
      ("element_type", .text typeName)]

/-- A diagnostic as a tree of values. -/
def Diagnostic.toJson (diagnostic : Diagnostic) : Json :=
  .object [("severity", .text diagnostic.severity.name),
    ("location", diagnostic.location.toJson), ("message", .text diagnostic.finding.message)]

/-- A report as a tree of values. -/
def Report.toJson (report : Report) : Json :=
  .object [("diagnostics", .list (report.diagnostics.map Diagnostic.toJson))]

end Lectern.Check
