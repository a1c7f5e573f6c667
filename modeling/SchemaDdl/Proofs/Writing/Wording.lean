import SchemaDdl.Proofs.Verdict
import SchemaDdl.Writing.Action

/-!
# Choices of wording

The options of a target choose among words. An action that can be written with some options can be
written with any others, and one that cannot fails with the same defects.
-/

namespace SchemaDdl

/-- A statement without its text. -/
def Statement.wordless (statement : Statement) : Statement :=
  { statement with sql := "" }

namespace Target

def reworded (target : Target) (options : Options) : Target :=
  { target with options }

variable {target : Target} {options : Options} {table : Table} {column : Column}

/-! ## Columns -/

theorem verdict_postgresType :
    verdict ((target.reworded options).postgresType table column) =
      verdict (target.postgresType table column) := by
  unfold postgresType
  split
  · rfl
  · refine verdict_bind_left fun base => ?_
    split <;> split <;> exact verdict_pure _ _

theorem verdict_columnType :
    verdict ((target.reworded options).columnType table column) =
      verdict (target.columnType table column) := by
  unfold columnType
  cases family : target.family with
  | postgres =>
    have same : (target.reworded options).family = .postgres := family
    rw [same]
    exact verdict_postgresType
  | sqlite =>
    have same : (target.reworded options).family = .sqlite := family
    rw [same]
    rfl

theorem verdict_columnDefinition :
    verdict ((target.reworded options).columnDefinition table column) =
      verdict (target.columnDefinition table column) := by
  unfold columnDefinition
  refine verdict_bind verdict_columnType fun _ _ => ?_
  exact verdict_bind_left fun _ => verdict_pure _ _

theorem verdict_columnText :
    verdict ((target.reworded options).columnText table column) =
      verdict (target.columnText table column) :=
  verdict_bind verdict_columnDefinition fun _ _ => verdict_pure _ _

theorem verdict_addColumnText :
    verdict ((target.reworded options).addColumnText table column) =
      verdict (target.addColumnText table column) :=
  verdict_bind verdict_columnText fun _ _ => verdict_pure _ _

theorem verdict_alterColumnText {action : ColumnAction} :
    verdict ((target.reworded options).alterColumnText table column action) =
      verdict (target.alterColumnText table column action) := by
  refine verdict_bind ?_ fun _ _ => verdict_pure _ _
  cases action <;> rfl

/-! ## Tables -/

theorem verdict_tableLines :
    ((target.reworded options).tableLines table).map verdict =
      (target.tableLines table).map verdict := by
  have columns : ∀ column, verdict ((target.reworded options).columnLine table column) =
      verdict (target.columnLine table column) := by
    intro column
    unfold columnLine
    rw [verdict_map, verdict_map, verdict_columnDefinition]
  simp only [tableLines, List.map_append, List.map_map, Function.comp_def, columns]
  rfl

theorem verdict_createTableText :
    verdict ((target.reworded options).createTableText table) =
      verdict (target.createTableText table) := by
  have lines : (Attempt.partition ((target.reworded options).tableLines table)).1 =
      (Attempt.partition (target.tableLines table)).1 := by
    rw [← partition_map_verdict, verdict_tableLines, partition_map_verdict]
  have ending : (target.reworded options).tableEnd table = target.tableEnd table := rfl
  unfold createTableText
  split
  · rfl
  · dsimp only
    rw [lines, ending]
    split <;> rfl

theorem verdict_recreationText {change : TableChange} :
    verdict ((target.reworded options).recreationText change) =
      verdict (target.recreationText change) := by
  have always : (target.reworded options).alwaysCreating =
      target.alwaysCreating.reworded { options with ifNotExists := false } := rfl
  refine verdict_bind (verdict_mapM fun step => ?_) fun _ _ => verdict_pure _ _
  cases step with
  | createShadow =>
    rw [recreationStepText, recreationStepText, always]
    exact verdict_createTableText
  | createIndex index => exact verdict_whole (verdict_bind_left fun _ => verdict_pure _ _)
  | _ => rfl

/-! ## Triggers -/

theorem verdict_sqliteTriggerText {trigger : Trigger} :
    verdict ((target.reworded options).sqliteTriggerText trigger) =
      verdict (target.sqliteTriggerText trigger) := by
  unfold sqliteTriggerText
  refine verdict_bind_left fun _ => ?_
  cases trigger.events with
  | nil => rfl
  | cons event events =>
    cases events with
    | nil =>
      -- The three checks fail alike, and the text is what is left.
      dsimp only
      split
      · rfl
      · split
        · rfl
        · split
          · rfl
          · exact verdict_pure _ _
    | cons other events => rfl

theorem verdict_createTriggerText {trigger : Trigger} :
    verdict ((target.reworded options).createTriggerText trigger) =
      verdict (target.createTriggerText trigger) := by
  unfold createTriggerText
  cases family : target.family with
  | postgres =>
    have same : (target.reworded options).family = .postgres := family
    rw [same]
    rfl
  | sqlite =>
    have same : (target.reworded options).family = .sqlite := family
    rw [same]
    exact verdict_sqliteTriggerText

/-! ## Actions -/

theorem verdict_actionText {action : Action} :
    verdict ((target.reworded options).actionText action) = verdict (target.actionText action) := by
  cases action with
  | createSequence sequence => exact verdict_whole (verdict_bind_left fun _ => verdict_pure _ _)
  | createTable table => exact verdict_createTableText
  | recreateTable change => exact verdict_recreationText
  | addColumn table column again => exact verdict_whole verdict_addColumnText
  | alterColumn table column action => exact verdict_whole verdict_alterColumnText
  | createIndex index => exact verdict_whole (verdict_bind_left fun _ => verdict_pure _ _)
  | createView view =>
    refine verdict_whole ?_
    unfold createViewText
    split
    · exact verdict_bind_left fun _ => verdict_pure _ _
    · exact verdict_bind_left fun _ => verdict_pure _ _
  | createTrigger trigger => exact verdict_whole verdict_createTriggerText
  | _ => rfl

theorem statement_wordless {action : Action} :
    ((target.reworded options).statement action).map Statement.wordless =
      (target.statement action).map Statement.wordless := by
  have wordless : ∀ target : Target, (target.statement action).map Statement.wordless =
      (verdict (target.actionText action)).map fun _ => target.statementWith action "" := by
    intro target
    unfold statement
    cases target.actionText action <;> rfl
  rw [wordless, wordless, verdict_actionText]
  rfl

end Target

end SchemaDdl
