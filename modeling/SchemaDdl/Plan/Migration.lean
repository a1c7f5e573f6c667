import SchemaDdl.Digest
import SchemaDdl.Plan.Alteration
import SchemaDdl.Plan.Creation
import SchemaDdl.Plan.Warning

/-!
# Migrations

The plan that turns one version of a schema into another. Every action belongs to a phase, and the
phases follow one another, so that additions come before removals; within a phase actions keep the
order in which they were found. Objects beside tables are only created: a plan warns of those that
were changed or removed.
-/

namespace SchemaDdl

/-! ## Phases -/

/-- The phases of a plan. -/
inductive Phase where
  /-- New extensions, types, sequences and tables. -/
  | creation
  /-- New columns, constraints and indexes. -/
  | addition
  /-- Changes in place, and new views, functions, triggers and policies. -/
  | modification
  /-- Dropped indexes, constraints and columns. -/
  | removal
  /-- Dropped tables. -/
  | tableRemoval
deriving DecidableEq, Repr

def Phase.all : List Phase :=
  [.creation, .addition, .modification, .removal, .tableRemoval]

def Operation.phase : Operation → Phase
  | .createExtension | .createType | .createSequence | .createTable => .creation
  | .addColumn | .addConstraint | .createIndex => .addition
  | .alterColumn | .replaceConstraint | .recreateTable | .comment | .tableSettings | .createView
  | .createFunction | .createTrigger | .createPolicy => .modification
  | .dropIndex | .dropConstraint | .dropColumn => .removal
  | .dropTable => .tableRemoval

/-- A planned action with its phase. -/
structure PlanStep where
  phase : Phase
  action : Action
deriving Repr

def PlanStep.routed (action : Action) : PlanStep :=
  ⟨action.operation.phase, action⟩

/-! ## Existing tables -/

namespace TableChange

def isReplaced (actions : List Action) (path : String) : Bool :=
  let touches (operation : Operation) : Bool := actions.any fun action =>
    action.operation == operation && action.affected.head? == some path
  touches .dropColumn && touches .addColumn

/-- The step of an action of an alteration. A column that takes the place of a dropped one is one
change, whose two parts stay together. -/
def alterationStep (actions : List Action) (action : Action) : PlanStep :=
  if (action.operation == .addColumn || action.operation == .dropColumn)
      && action.affected.head?.any (isReplaced actions) then
    ⟨.modification, action⟩
  else
    .routed action

def alterationSteps (change : TableChange) (capabilities : Capabilities) (comments : Bool) :
    List PlanStep :=
  let actions := change.actions capabilities comments
  actions.map (alterationStep actions)

def indexRemovals (change : TableChange) : List PlanStep :=
  (change.old.indexes.filter fun index => !change.new.indexes.any (·.name == index.name)).map
    fun index => .routed (.dropIndex index)

def indexAdditions (change : TableChange) : List PlanStep :=
  change.new.indexes.flatMap fun index =>
    match change.old.indexes.find? (·.name == index.name) with
    | none => [.routed (.createIndex index)]
    | some held =>
        if held == index then []
        else [⟨.modification, .dropIndex held⟩, ⟨.modification, .createIndex index⟩]

/-- The steps for a table of both versions. Indexes are dropped before the columns they cover, and
building the table anew builds its indexes too. -/
def steps (change : TableChange) (capabilities : Capabilities) (comments : Bool) :
    List PlanStep :=
  if change.requiresRecreation capabilities then
    change.alterationSteps capabilities comments
  else
    change.indexRemovals ++ change.alterationSteps capabilities comments
      ++ change.indexAdditions

/-- The columns that may have been renamed. -/
def columnRenames (change : TableChange) : List Rename :=
  Rename.bestPairs <| change.removed.flatMap fun removed =>
    change.added.filterMap fun added =>
      if removed.canonicalType == added.canonicalType then
        Rename.between? removed.name added.name removed.name added.name
      else
        none

def renameWarnings (change : TableChange) : List PlanWarning :=
  change.columnRenames.map (.columnRename change.new.qualifiedName)

end TableChange

/-! ## Schemas -/

/-- How an object stands to the version of it before. -/
inductive Standing (α : Type) where
  | added
  | unchanged
  | changed (old : α)
deriving Repr

/-- How an object stands to the first of some objects that means the same. -/
def Standing.among {α : Type} [BEq α] (olds : List α) (means : α → Bool) (new : α) : Standing α :=
  match olds.find? means with
  | none => .added
  | some old => if old == new then .unchanged else .changed old

def Standing.steps {α : Type} (standing : Standing α) (create : Action) : List PlanStep :=
  match standing with
  | .added => [.routed create]
  | .unchanged | .changed _ => []

def Standing.warnings {α : Type} (standing : Standing α) (kind : ObjectKind) (object : String) :
    List PlanWarning :=
  match standing with
  | .changed _ => [.manualMigration object (.changed kind)]
  | .added | .unchanged => []

/-- Two versions of a schema, and the schema that names without one are in. -/
structure SchemaChange where
  old : Schema
  new : Schema
  defaultSchema : String
deriving Repr

namespace SchemaChange

/-- Whether two names mean the same object. -/
def same (change : SchemaChange) (left right : QualifiedName) : Bool :=
  left.agrees change.defaultSchema right

/-! ### Extensions, types and sequences -/

def extensionSteps (change : SchemaChange) : List PlanStep :=
  (change.new.extensions.filter fun extension =>
    !change.old.extensions.any (·.name == extension.name)).map
    fun extension => .routed (.createExtension extension)

def labelActions (name : QualifiedName) (held : List String) : List String → List Action
  | [] => []
  | label :: labels =>
      if held.contains label then
        labelActions name held labels
      else
        .addEnumLabel name label (labels.find? held.contains)
          :: labelActions name held labels

/-- What is to be done for an enumeration type. Labels may be put among those that a type has, which
keep their order. -/
def enumPlan (change : SchemaChange) (enumType : EnumType) : List Action × List PlanWarning :=
  match change.old.enums.find? fun old => change.same old.name enumType.name with
  | none => ([.createEnum enumType], [])
  | some old =>
      if old.values == enumType.values then
        ([], [])
      else if enumType.values.filter old.values.contains == old.values then
        (labelActions enumType.name old.values enumType.values, [])
      else
        ([], [.manualMigration enumType.name.text .relabelled])

def enumSteps (change : SchemaChange) : List PlanStep :=
  change.new.enums.flatMap fun enumType => (change.enumPlan enumType).1.map .routed

def enumWarnings (change : SchemaChange) : List PlanWarning :=
  change.new.enums.flatMap fun enumType => (change.enumPlan enumType).2

def sequenceStanding (change : SchemaChange) (sequence : Sequence) : Standing Sequence :=
  .among change.old.sequences (fun old => change.same old.name sequence.name) sequence

def sequenceSteps (change : SchemaChange) : List PlanStep :=
  change.new.sequences.flatMap fun sequence =>
    (change.sequenceStanding sequence).steps (.createSequence sequence)

def sequenceWarnings (change : SchemaChange) : List PlanWarning :=
  change.new.sequences.flatMap fun sequence =>
    (change.sequenceStanding sequence).warnings .sequence sequence.name.text

/-! ### Tables -/

/-- The tables without an old version. -/
def createdTables (change : SchemaChange) : List Table :=
  change.new.tables.filter fun table =>
    (change.old.tableMatching? change.defaultSchema table.qualifiedName).isNone

/-- The tables without a new version. -/
def droppedTables (change : SchemaChange) : List Table :=
  change.old.tables.filter fun table =>
    (change.new.tableMatching? change.defaultSchema table.qualifiedName).isNone

/-- The tables of both versions, in the order of the new one. -/
def keptTables (change : SchemaChange) : List TableChange :=
  change.new.tables.filterMap fun table =>
    (change.old.tableMatching? change.defaultSchema table.qualifiedName).map (⟨·, table⟩)

def sameShape (left right : Table) : Bool :=
  left.columns.length == right.columns.length
    && left.columns.all fun column =>
      (right.column? column.name).any (·.canonicalType == column.canonicalType)

/-- The tables that may have been renamed. -/
def tableRenames (change : SchemaChange) : List Rename :=
  Rename.bestPairs <| change.droppedTables.flatMap fun old =>
    change.createdTables.filterMap fun new =>
      if sameShape old new then
        Rename.between? old.name new.name old.qualifiedName.text new.qualifiedName.text
      else
        none

def cycleWarnings (change : SchemaChange) : List PlanWarning :=
  match dependencyCycle change.defaultSchema change.createdTables with
  | [] => []
  | tables => [.dependencyCycle (tables.map (·.qualifiedName))]

def creationActions (capabilities : Capabilities) (comments : Bool) (table : Table) :
    List Action :=
  .createTable table :: table.indexes.map .createIndex ++ table.completion capabilities comments

def creationSteps (change : SchemaChange) (capabilities : Capabilities) (comments : Bool) :
    List PlanStep :=
  (inDependencyOrder change.defaultSchema change.createdTables).flatMap fun table =>
    (creationActions capabilities comments table).map .routed

def dropSteps (change : SchemaChange) : List PlanStep :=
  (inDependencyOrder change.defaultSchema change.droppedTables).reverse.map fun table =>
    .routed (.dropTable table.qualifiedName)

/-! ### Views, functions, triggers and policies -/

def viewStanding (change : SchemaChange) (view : View) : Standing View :=
  .among change.old.views (fun old => change.same old.name view.name) view

def functionStanding (change : SchemaChange) (function : StoredFunction) :
    Standing StoredFunction :=
  .among change.old.functions (fun old => change.same old.name function.name) function

def sameTrigger (change : SchemaChange) (left right : Trigger) : Bool :=
  left.name == right.name && change.same left.table right.table

def triggerStanding (change : SchemaChange) (trigger : Trigger) : Standing Trigger :=
  .among change.old.triggers (change.sameTrigger · trigger) trigger

def samePolicy (change : SchemaChange) (left right : Policy) : Bool :=
  left.name == right.name && change.same left.table right.table

def policyStanding (change : SchemaChange) (policy : Policy) : Standing Policy :=
  .among change.old.policies (change.samePolicy · policy) policy

def viewSteps (change : SchemaChange) : List PlanStep :=
  change.new.views.flatMap fun view => (change.viewStanding view).steps (.createView view)

def functionSteps (change : SchemaChange) : List PlanStep :=
  change.new.functions.flatMap fun function =>
    (change.functionStanding function).steps (.createFunction function)

def triggerSteps (change : SchemaChange) : List PlanStep :=
  change.new.triggers.flatMap fun trigger =>
    (change.triggerStanding trigger).steps (.createTrigger trigger)

def addedPolicies (change : SchemaChange) : List Policy :=
  change.new.policies.filter fun policy =>
    match change.policyStanding policy with
    | .added => true
    | .unchanged | .changed _ => false

def isSecured (change : SchemaChange) (table : QualifiedName) : Bool :=
  change.old.policies.any fun policy => change.same policy.table table

/-- New policies, each table being secured before its first one unless old policies are in force on
it. The tables that the plan secures are known by their texts, which are in `named`. -/
def securingActions (change : SchemaChange) : (named : List String) → List Policy → List Action
  | _, [] => []
  | named, policy :: policies =>
      if change.isSecured policy.table || named.contains policy.table.text then
        .createPolicy policy :: change.securingActions named policies
      else
        .enableRowLevelSecurity policy.table :: .createPolicy policy
          :: change.securingActions (policy.table.text :: named) policies

def policySteps (change : SchemaChange) : List PlanStep :=
  (change.securingActions [] change.addedPolicies).map .routed

def changeWarnings (change : SchemaChange) : List PlanWarning :=
  (change.new.views.flatMap fun view =>
      (change.viewStanding view).warnings .view view.name.text)
    ++ (change.new.functions.flatMap fun function =>
      (change.functionStanding function).warnings .function function.name.text)
    ++ (change.new.triggers.flatMap fun trigger =>
      (change.triggerStanding trigger).warnings .trigger trigger.location)
    ++ change.new.policies.flatMap fun policy =>
      (change.policyStanding policy).warnings .policy policy.location

def removalWarnings (change : SchemaChange) : List PlanWarning :=
  List.flatten [
    (change.old.views.filter fun view =>
      !change.new.views.any fun new => change.same new.name view.name).map
        fun view => .manualMigration view.name.text (.removed .view),
    (change.old.functions.filter fun function =>
      !change.new.functions.any fun new => change.same new.name function.name).map
        fun function => .manualMigration function.name.text (.removed .function),
    (change.old.triggers.filter fun trigger =>
      !change.new.triggers.any (change.sameTrigger · trigger)).map
        fun trigger => .manualMigration trigger.location (.removed .trigger),
    (change.old.policies.filter fun policy =>
      !change.new.policies.any (change.samePolicy · policy)).map
        fun policy => .manualMigration policy.location (.removed .policy)]

/-! ### The whole -/

def steps (change : SchemaChange) (capabilities : Capabilities) (comments : Bool) :
    List PlanStep :=
  change.extensionSteps ++ change.enumSteps ++ change.sequenceSteps
    ++ change.creationSteps capabilities comments
    ++ change.keptTables.flatMap (·.steps capabilities comments)
    ++ change.dropSteps
    ++ change.viewSteps ++ change.functionSteps ++ change.triggerSteps ++ change.policySteps

def warnings (change : SchemaChange) : List PlanWarning :=
  change.enumWarnings ++ change.sequenceWarnings
    ++ change.tableRenames.map .tableRename
    ++ change.cycleWarnings
    ++ change.keptTables.flatMap (·.renameWarnings)
    ++ change.changeWarnings ++ change.removalWarnings

end SchemaChange

/-! ## Plans -/

/-- Statements in the order in which they are to be run, and notes on them. -/
structure MigrationPlan where
  statements : List Statement := []
  warnings : List PlanWarning := []
deriving DecidableEq, Repr, Inhabited

namespace MigrationPlan

def isEmpty (plan : MigrationPlan) : Bool :=
  plan.statements.isEmpty

def destructiveStatements (plan : MigrationPlan) : List Statement :=
  plan.statements.filter (·.destructive)

def isDestructive (plan : MigrationPlan) : Bool :=
  plan.statements.any (·.destructive)

/-- The plan as one script. -/
def script (plan : MigrationPlan) : String :=
  scriptOf (plan.statements.map (·.sql))

def checksum (plan : MigrationPlan) : String :=
  Digest.ofText plan.script

def encode (plan : MigrationPlan) : Json.Value :=
  .object
    [("statements", .array (plan.statements.map Statement.encode)),
      ("warnings", .array (plan.warnings.map PlanWarning.encode))]

end MigrationPlan

def inPhaseOrder {α : Type} (items : List (Phase × α)) : List α :=
  Phase.all.flatMap fun phase => (items.filter (·.1 == phase)).map Prod.snd

def Target.stepStatement (target : Target) (step : PlanStep) : Outcome (Phase × Statement) :=
  (target.statement step.action).map (step.phase, ·)

/-- The plan from one version of a schema to another. The first step that cannot be written decides
the failure. -/
def Target.plan (target : Target) (old new : Schema) : Outcome MigrationPlan := do
  let change : SchemaChange := ⟨old, new, target.capabilities.defaultSchema⟩
  let steps := change.steps target.capabilities target.options.comments
  let statements ← steps.mapM target.stepStatement
  return { statements := inPhaseOrder statements, warnings := change.warnings }

end SchemaDdl
