import SchemaDdl.Json.Value
import SchemaDdl.Validation.Finding

/-!
# Issues and reports

A finding together with the place it was made at, and all the issues of one validation.
-/

namespace SchemaDdl

/-- A finding about the object at a location, which is named by its dotted path. -/
structure Issue where
  location : String
  finding : Finding
deriving DecidableEq, Repr

namespace Issue

def severity (issue : Issue) : Severity :=
  issue.finding.severity

def code (issue : Issue) : FindingCode :=
  issue.finding.code

def message (capabilities : Capabilities) (issue : Issue) : String :=
  let fact := issue.finding.message capabilities.dialect
  let line := s!"{issue.severity.name} [{issue.code.text}] {issue.location}: {fact}"
  match issue.finding.alternative? capabilities with
  | some alternative => s!"{line} (alternative: {alternative})"
  | none => line

def encode (capabilities : Capabilities) (issue : Issue) : Json.Value :=
  .object <|
    [("severity", .string issue.severity.name),
        ("category", .string issue.finding.category.name), ("code", .string issue.code.text),
        ("location", .string issue.location),
        ("message", .string (issue.finding.message capabilities.dialect))]
      ++ match issue.finding.alternative? capabilities with
        | some alternative => [("alternative", .string alternative)]
        | none => []

end Issue

def issueWhen (condition : Bool) (location : String) (finding : Finding) : List Issue :=
  if condition then [⟨location, finding⟩] else []

/-- The issues of a validation in the order of their discovery. -/
structure Report where
  capabilities : Capabilities
  issues : List Issue
deriving Repr

namespace Report

def ofSeverity (report : Report) (severity : Severity) : List Issue :=
  report.issues.filter (·.severity == severity)

def errors (report : Report) : List Issue := report.ofSeverity .error

def warnings (report : Report) : List Issue := report.ofSeverity .warning

def infos (report : Report) : List Issue := report.ofSeverity .info

/-- Whether there is no error. -/
def isValid (report : Report) : Bool :=
  report.errors.isEmpty

def messages (report : Report) : List String :=
  report.issues.map (Issue.message report.capabilities)

def encode (report : Report) : Json.Value :=
  .object
    [("dialect", .string report.capabilities.dialect.name),
      ("valid", .bool report.isValid),
      ("issues", .array (report.issues.map (Issue.encode report.capabilities))),
      ("summary", .object
        [("errors", Json.Value.ofNat report.errors.length),
          ("warnings", Json.Value.ofNat report.warnings.length),
          ("info", Json.Value.ofNat report.infos.length)])]

end Report

end SchemaDdl
