import SchemaDdl.Dialect
import SchemaDdl.Schema.Index
import SchemaDdl.Number.Decimal

/-!
# Defects

Why a schema cannot be written as SQL. A failure is one defect, or several that were found together.
-/

namespace SchemaDdl

/-- Why a default cannot be written. -/
inductive DefaultDefect where
  | emptyObject (dataType : String)
  | emptyArray (dataType : String)
  | uniqueRowId (dialect : Dialect)
  | notFinite (value : Binary64)
  | notAnArray
  | unsupportedItems
deriving DecidableEq, Repr

def DefaultDefect.message : DefaultDefect → String
  | .emptyObject dataType =>
      s!"an empty object needs a json or text column, found '{dataType}'"
  | .emptyArray dataType =>
      s!"an empty array needs an array, json or text column, found '{dataType}'"
  | .uniqueRowId dialect => s!"unique_rowid() is not available on {dialect.name}"
  | .notFinite value => s!"{value.toPlain} is not a finite number"
  | .notAnArray => "an array column needs a JSON array default"
  | .unsupportedItems => "array defaults may only hold scalars and nested arrays"

/-- A construct that a dialect may be unable to express. -/
inductive Construct where
  | exclusionConstraints
  | inheritance
  | partitioning
  | indexWithoutKeys
  | indexMethod (method : IndexMethod)
  | coveringColumns
  | partialIndexes
  | expressionIndexes
  | keyOrdering (method : IndexMethod)
  | enumTypes
  | sequences
  | storedFunctions
  | language (name : String)
  | triggers
  | triggerWithoutFunction
  | triggerWithoutEvents
  | rowLevelTruncate
  | severalEvents
  | truncateTriggers
  | statementTriggers
  | triggerWithoutBody
  | rowLevelSecurity
  | policies
  | materializedViews
  | views
  | extensions
  | changedPartitioning
  | changedInheritance
  | changedTemporary
  | addedIdentity
deriving DecidableEq, Repr

def Construct.text : Construct → String
  | .exclusionConstraints => "exclusion constraints"
  | .inheritance => "table inheritance"
  | .partitioning => "declarative partitioning"
  | .indexWithoutKeys => "an index without keys"
  | .indexMethod method => s!"index method '{method.sql}'"
  | .coveringColumns => "included (covering) columns"
  | .partialIndexes => "partial indexes"
  | .expressionIndexes => "expression indexes"
  | .keyOrdering method => s!"key ordering on a {method.sql} index"
  | .enumTypes => "enum types"
  | .sequences => "sequences"
  | .storedFunctions => "stored functions"
  | .language name => s!"language {name}"
  | .triggers => "triggers"
  | .triggerWithoutFunction => "a trigger without a function to execute"
  | .triggerWithoutEvents => "a trigger without events"
  | .rowLevelTruncate => "a row-level TRUNCATE trigger"
  | .severalEvents => "a trigger on several events"
  | .truncateTriggers => "TRUNCATE triggers"
  | .statementTriggers => "statement-level triggers"
  | .triggerWithoutBody => "a trigger without a body"
  | .rowLevelSecurity => "row-level security"
  | .policies => "row-level security policies"
  | .materializedViews => "materialized views"
  | .views => "views"
  | .extensions => "extensions"
  | .changedPartitioning => "changing the partitioning of an existing table"
  | .changedInheritance => "changing the inheritance of an existing table"
  | .changedTemporary => "changing a table to or from TEMPORARY"
  | .addedIdentity => "adding an identity to an existing column"

/-- A single reason why something cannot be written. -/
inductive Defect where
  | invalidAutoIncrement (table : QualifiedName) (column dataType : String) (dialect : Dialect)
  | unsupportedDefault (table : QualifiedName) (column : String) (reason : DefaultDefect)
  | unsupportedConstruct (object : String) (construct : Construct) (dialect : Dialect)
  | emptyTable (table : QualifiedName)
  | malformedFunction (function : QualifiedName)
deriving DecidableEq, Repr

def Defect.message : Defect → String
  | .invalidAutoIncrement table column dataType dialect =>
      s!"Column '{table.text}.{column}' is auto-increment but has type '{dataType}'; "
        ++ s!"{dialect.name} requires an integer primary key"
  | .unsupportedDefault table column reason =>
      s!"Default value for '{table.text}.{column}' cannot be rendered: {reason.message}"
  | .unsupportedConstruct object construct dialect =>
      s!"{dialect.name} cannot express {construct.text} on '{object}'"
  | .emptyTable table => s!"Table '{table.text}' has no columns"
  | .malformedFunction function =>
      s!"Function '{function.text}' is malformed: "
        ++ "a BEGIN ... END block requires language plpgsql, not sql"

/-- What an attempt to write a schema ends with when it does not succeed. -/
inductive Failure where
  | one (defect : Defect)
  | several (defects : List Defect)
deriving DecidableEq, Repr

def Failure.ofDefects? : List Defect → Option Failure
  | [] => none
  | [defect] => some (.one defect)
  | defects => some (.several defects)

def Failure.message : Failure → String
  | .one defect => defect.message
  | .several defects =>
      "Multiple errors occurred:\n"
        ++ Text.join "\n" (defects.map fun defect => "  - " ++ defect.message)

/-- The outcome of an attempt to write a part of a schema. -/
abbrev Attempt := Except Defect

/-- The outcome of an attempt to write a whole statement. -/
abbrev Outcome := Except Failure

/-- A defect of a part fails the whole. -/
def Attempt.whole {α : Type} (attempt : Attempt α) : Outcome α :=
  attempt.mapError .one

end SchemaDdl
