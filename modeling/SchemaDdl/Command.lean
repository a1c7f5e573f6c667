import SchemaDdl.Capability.Listing
import SchemaDdl.History.Record
import SchemaDdl.Json.Printer
import SchemaDdl.Plan.Limits
import SchemaDdl.Script.Adaptation
import SchemaDdl.Validation.Validate

/-!
# Commands

What the program does for its user: list a capability set, judge a schema, write the statements of a
schema or of a migration, and adapt a script. A command reads files through a function and gives
back what is to be printed, so that it can be run on any files.
-/

namespace SchemaDdl

/-- How a schema is judged and reported on. -/
structure ValidateOptions where
  /-- A schema with errors is a failure. -/
  strict : Bool := false
  /-- The report is written as data. -/
  json : Bool := false
  /-- Tables with names like those of shared tables count as shared. -/
  nameHeuristics : Bool := false
deriving DecidableEq, Repr, Inhabited

/-- How a migration is written. -/
structure DiffOptions where
  /-- Statements that can lose data are no failure. -/
  allowDestructive : Bool := false
  /-- The plan is written as data. -/
  json : Bool := false
  /-- The name under which the migration is recorded. -/
  recordName : Option String := none
  /-- The batch that the migration is recorded in. -/
  batch : Nat := 1
deriving DecidableEq, Repr, Inhabited

/-- A command with the files that it reads. -/
inductive Command where
  | capabilities
  | validate (schema : String) (options : ValidateOptions)
  | generate (schema : String) (options : Options)
  | diff (old new : String) (options : DiffOptions)
  | adapt (input : String)
deriving DecidableEq, Repr

/-- What a command ends with when it is carried out: a status, and what it prints as its output and
as its notes. -/
structure CommandOutput where
  status : Nat := 0
  out : String := ""
  notes : String := ""
deriving DecidableEq, Repr, Inhabited

/-- Why a command is not carried out. -/
inductive CommandFailure where
  | missingSchema (file : String)
  | invalidSchema (file : String)
  | missingScript (file : String)
  | unwritable (failure : Failure)
deriving DecidableEq, Repr

def CommandFailure.message : CommandFailure → String
  | .missingSchema file => s!"Failed to read schema {file}"
  | .invalidSchema file => s!"Invalid schema snapshot {file}"
  | .missingScript file => s!"Failed to read {file}"
  | .unwritable failure => failure.message

namespace Command

/-- The world as a command sees it: the texts of files, and the present time as it is recorded. -/
structure Environment where
  textOf : String → Option String
  timeText : Family → String

abbrev Result := Except CommandFailure CommandOutput

def loadSchema (environment : Environment) (file : String) : Except CommandFailure Schema :=
  match environment.textOf file with
  | none => .error (.missingSchema file)
  | some text =>
      match Schema.ofText? text with
      | none => .error (.invalidSchema file)
      | some schema => .ok schema

def dataText (value : Json.Value) : String :=
  value.pretty ++ "\n"

def unwritable {α : Type} (outcome : Outcome α) : Except CommandFailure α :=
  outcome.mapError .unwritable

def reportText (report : Report) : String :=
  let errors := report.errors.length
  let warnings := report.warnings.length
  let infos := report.infos.length
  String.join (report.messages.map (· ++ "\n"))
    ++ s!"{report.capabilities.dialect.name}: {errors} error(s), {warnings} warning(s), "
    ++ s!"{infos} info\n"

def runValidate (environment : Environment) (dialect : Dialect) (file : String)
    (options : ValidateOptions) : Result := do
  let schema ← loadSchema environment file
  let policy : TenancyPolicy :=
    if options.nameHeuristics then { hints := TenancyPolicy.usualHints } else {}
  let report ←
    unwritable ((Capabilities.builtIn dialect).validate policy schema).whole
  return {
    status := if options.strict && !report.isValid then 1 else 0
    out := if options.json then dataText report.encode else reportText report }

def runGenerate (environment : Environment) (dialect : Dialect) (file : String)
    (options : Options) : Result := do
  let schema ← loadSchema environment file
  let target : Target := { capabilities := Capabilities.builtIn dialect, options }
  let statements ← unwritable (target.createSchema schema)
  return { out := scriptOf (statements.map (·.sql)) ++ "\n" }

/-- The script of a plan, with the statements that record it when it has a name. -/
def planText (environment : Environment) (family : Family) (plan : MigrationPlan)
    (options : DiffOptions) : String :=
  if plan.isEmpty then
    ""
  else
    plan.script ++ "\n" ++ match options.recordName with
      | none => ""
      | some name =>
          let insert :=
            MigrationRecord.insertTextAt name plan.checksum options.batch
              (environment.timeText family)
          "\n" ++ scriptOf [MigrationRecord.createTableText family, insert] ++ "\n"

def runDiff (environment : Environment) (dialect : Dialect) (oldFile newFile : String)
    (options : DiffOptions) : Result := do
  let old ← loadSchema environment oldFile
  let new ← loadSchema environment newFile
  let target : Target := { capabilities := Capabilities.builtIn dialect }
  let plan ← unwritable (target.plan old new)
  return {
    status := if plan.isDestructive && !options.allowDestructive then 2 else 0
    out :=
      if options.json then dataText plan.encode
      else planText environment dialect.family plan options }

def firstLine (text : String) : String :=
  match text.toList.span (· != '\n') with
  | (line, []) => String.ofList line
  | (line, _) =>
      String.ofList (if line.getLast? == some '\r' then line.dropLast else line)

def changeNote (change : Script.Change) : String :=
  s!"{change.rule.code} {change.rule.description} ({change.found.length} match(es)): "
    ++ firstLine change.foundText ++ "\n"

def runAdapt (environment : Environment) (dialect : Dialect) (file : String) : Result :=
  match environment.textOf file with
  | none => .error (.missingScript file)
  | some text =>
      let adaptation := Script.adapt dialect text
      .ok {
        out := adaptation.text
        notes := String.join (adaptation.changes.map changeNote) }

def run (environment : Environment) (dialect : Dialect) : Command → Result
  | .capabilities => .ok { out := dataText (Capabilities.builtIn dialect).encode }
  | .validate file options => runValidate environment dialect file options
  | .generate file options => runGenerate environment dialect file options
  | .diff old new options => runDiff environment dialect old new options
  | .adapt file => runAdapt environment dialect file

end Command

end SchemaDdl
