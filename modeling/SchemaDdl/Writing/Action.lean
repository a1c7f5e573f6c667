import SchemaDdl.Writing.Alteration
import SchemaDdl.Writing.Objects
import SchemaDdl.Writing.Recreation

/-!
# Actions as statements

Every action becomes one statement, or fails with the defect that its text would have.
-/

namespace SchemaDdl.Target

def actionText (target : Target) : Action → Outcome String
  | .createExtension extension => (target.createExtensionText extension).whole
  | .createEnum enumType => (target.createEnumText enumType).whole
  | .addEnumLabel enumType label before => .ok (target.addEnumLabelText enumType label before)
  | .createSequence sequence => (target.createSequenceText sequence).whole
  | .ownSequence sequence owner => .ok (target.ownSequenceText sequence owner)
  | .createTable table => target.createTableText table
  | .dropTable table =>
      .ok s!"DROP TABLE {target.ifExists}{target.qualified table}{target.cascade}"
  | .recreateTable change => target.recreationText change
  | .addColumn table column _ => (target.addColumnText table column).whole
  | .dropColumn table column => .ok (target.dropColumnText table column)
  | .alterColumn table column action => (target.alterColumnText table column action).whole
  | .addConstraint table constraint _ => (target.addConstraintText table constraint).whole
  | .dropConstraint table name _ => .ok (target.dropConstraintText table name)
  | .replaceConstraint table name constraint _ =>
      (target.replaceConstraintText table name constraint).whole
  | .replacePrimaryKey change => .ok (target.replacePrimaryKeyText change)
  | .setTable table setting => .ok (target.alterTableText table (target.settingText setting))
  | .refuse table construct => .error (.one (target.lacking table.text construct))
  | .createIndex index => (target.createIndexText index).whole
  | .dropIndex index => .ok (target.dropIndexText index)
  | .commentTable table comment => .ok (target.commentTableText table comment)
  | .commentColumn table column comment =>
      .ok (target.commentColumnText table column comment)
  | .createView view => (target.createViewText view).whole
  | .createFunction function => (target.createFunctionText function).whole
  | .createTrigger trigger => (target.createTriggerText trigger).whole
  | .enableRowLevelSecurity table => (target.enableRowLevelSecurityText table).whole
  | .createPolicy policy => (target.createPolicyText policy).whole

def statementWith (target : Target) (action : Action) (sql : String) : Statement where
  sql := sql
  kind := action.kind
  operation := action.operation
  destructive := action.destructive target.family
  affected := action.affected

/-- The statement that carries out an action. -/
def statement (target : Target) (action : Action) : Outcome Statement :=
  (target.actionText action).map (target.statementWith action)

/-- The statements of actions, unless one of them fails; the first to fail decides. -/
def statements (target : Target) (actions : List Action) : Outcome (List Statement) :=
  actions.mapM target.statement

end SchemaDdl.Target
