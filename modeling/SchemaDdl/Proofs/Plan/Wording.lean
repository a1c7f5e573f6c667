import SchemaDdl.Capability.BuiltIn
import SchemaDdl.Plan.Migration
import SchemaDdl.Proofs.Success
import SchemaDdl.Proofs.Writing.Wording

/-!
# Plans in other words

Comments apart, options only choose the texts in a plan. Whether there is a plan, why there is none,
which statements it has in which order, what they do and what it warns of do not depend on them.
-/

namespace SchemaDdl

/-- A plan without the texts of its statements. -/
def MigrationPlan.wordless (plan : MigrationPlan) : MigrationPlan :=
  { plan with statements := plan.statements.map Statement.wordless }

theorem inPhaseOrder_map {α β : Type} (change : α → β) (items : List (Phase × α)) :
    inPhaseOrder (items.map (Prod.map id change)) = (inPhaseOrder items).map change := by
  simp only [inPhaseOrder, List.filter_map, List.map_flatMap, List.map_map]
  rfl

namespace Target

variable {target : Target} {old new : Schema}

def stepOutline (target : Target) (step : PlanStep) : Outcome (Phase × Statement) :=
  (target.stepStatement step).map (Prod.map id Statement.wordless)

theorem stepOutline_reworded (target : Target) (options : Options) :
    (target.reworded options).stepOutline = target.stepOutline := by
  have outline : ∀ (target : Target) (step : PlanStep), target.stepOutline step =
      ((target.statement step.action).map Statement.wordless).map (step.phase, ·) := by
    intro target step
    unfold stepOutline stepStatement
    cases target.statement step.action <;> rfl
  funext step
  rw [outline, outline, statement_wordless]

theorem map_wordless_plan :
    (target.plan old new).map MigrationPlan.wordless = do
      let change : SchemaChange := ⟨old, new, target.capabilities.defaultSchema⟩
      let steps := change.steps target.capabilities target.options.comments
      let statements ← steps.mapM target.stepOutline
      return { statements := inPhaseOrder statements, warnings := change.warnings } := by
  have outline : target.stepOutline = fun step =>
      (target.stepStatement step).map (Prod.map id Statement.wordless) := rfl
  unfold plan
  dsimp only
  rw [outline, ← map_mapM]
  generalize List.mapM target.stepStatement _ = attempt
  cases attempt with
  | error failure => rfl
  | ok statements =>
    exact congrArg (fun statements => Except.ok (⟨statements, _⟩ : MigrationPlan))
      (inPhaseOrder_map Statement.wordless statements).symm

/-- Two choices of options that agree on comments lead to the same failure, or to plans that differ
in the texts of their statements only. -/
theorem wordless_plan_eq {capabilities : Capabilities} {options options' : Options}
    (comments : options.comments = options'.comments) (old new : Schema) :
    (Target.plan ⟨capabilities, options⟩ old new).map MigrationPlan.wordless =
      (Target.plan ⟨capabilities, options'⟩ old new).map MigrationPlan.wordless := by
  have outline : Target.stepOutline ⟨capabilities, options⟩ =
      Target.stepOutline ⟨capabilities, options'⟩ :=
    stepOutline_reworded ⟨capabilities, options'⟩ options
  rw [map_wordless_plan, map_wordless_plan, outline]
  dsimp only
  rw [comments]

end Target

/-! ## An example -/

namespace WordingExample

def identity : Column := { name := "id", dataType := "integer", autoIncrement := true }

def pages : Schema := { tables := [{ name := "pages", columns := [identity] }] }

def careful : Options := { ifNotExists := true, identityColumns := true }

end WordingExample

open WordingExample in
/-- Pages are created, in whatever words. -/
theorem wordless_plan_eq_pages :
    careful.comments = ({} : Options).comments ∧
      (Target.plan ⟨Capabilities.postgres, careful⟩ {} pages).map MigrationPlan.wordless =
        (Target.plan ⟨Capabilities.postgres, {}⟩ {} pages).map MigrationPlan.wordless ∧
      Succeeds (Target.plan ⟨Capabilities.postgres, {}⟩ {} pages) := by
  have comments : careful.comments = ({} : Options).comments := rfl
  exact ⟨comments, Target.wordless_plan_eq comments {} pages, ⟨_, rfl⟩⟩

end SchemaDdl
