import SchemaDdl.Plan.Migration
import SchemaDdl.Validation.Issue

/-!
# Limits of a plan

Whether a plan can be run as one batch. A statement that holds several is cut into them to be
counted.
-/

namespace SchemaDdl

/-- How many parts a text has between the places where a semicolon ends a line. -/
def countParts : List Char → Nat
  | ';' :: '\n' :: text => countParts text + 1
  | _ :: text => countParts text
  | [] => 1

namespace MigrationPlan

def statementCount (plan : MigrationPlan) : Nat :=
  plan.statements.foldl (fun count statement => count + countParts statement.sql.toList) 0

/-- The issues of statements that are too long, each at the first object it touches. -/
def sizeIssues (plan : MigrationPlan) (limits : BatchLimits) : List Issue :=
  match limits.maxStatementBytes with
  | none => []
  | some limit =>
      (plan.statements.filter fun statement => limit < Text.byteLength statement.sql).map
        fun statement =>
          ⟨statement.affected.headD "", .statementTooLarge (Text.byteLength statement.sql) limit⟩

/-- The issue of a plan with too many statements. -/
def countIssues (plan : MigrationPlan) (limits : BatchLimits) : List Issue :=
  match limits.maxStatements with
  | none => []
  | some limit =>
      issueWhen (limit < plan.statementCount) "plan"
        (.tooManyStatements plan.statementCount limit)

/-- The issues of running a plan as one batch. -/
def limitIssues (plan : MigrationPlan) (limits : BatchLimits) : List Issue :=
  plan.sizeIssues limits ++ plan.countIssues limits

end MigrationPlan

end SchemaDdl
