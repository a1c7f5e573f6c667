import SchemaDdl.Plan.Dependency
import SchemaDdl.Writing.Action

/-!
# Creating a schema

The actions that build a schema from nothing. What others refer to comes first, and row-level
security is switched on for a table just before its first policy.
-/

namespace SchemaDdl

/-! ## What belongs to a table -/

def Table.creationSettings (capabilities : Capabilities) (table : Table) : List TableSetting :=
  if capabilities.family = .postgres && capabilities.supports .zoneConfig
      && !table.platform.zoneConfig.isEmpty then
    [.zone table.platform.zoneConfig]
  else
    []

def Table.commentActions (table : Table) : List Action :=
  let name := table.qualifiedName
  (table.comment.map fun comment => Action.commentTable name (some comment)).toList
    ++ table.columns.filterMap fun column =>
      column.comment.map fun comment => .commentColumn name column.name (some comment)

def Table.completion (capabilities : Capabilities) (comments : Bool) (table : Table) :
    List Action :=
  (table.creationSettings capabilities).map (.setTable table.qualifiedName)
    ++ if comments && capabilities.supports .comments then table.commentActions else []

/-- Policies, each table being secured before its first one unless it is `secured` already. -/
def policyActions : (secured : List QualifiedName) → List Policy → List Action
  | _, [] => []
  | secured, policy :: policies =>
      if secured.contains policy.table then
        .createPolicy policy :: policyActions secured policies
      else
        .enableRowLevelSecurity policy.table :: .createPolicy policy
          :: policyActions (policy.table :: secured) policies

/-! ## Whole schemas -/

/-- The actions that give sequences to the columns that own them. -/
def Schema.ownershipActions (schema : Schema) : List Action :=
  schema.sequences.filterMap fun sequence =>
    sequence.ownedBy.map (.ownSequence sequence.name)

/-- The actions that build a schema from nothing. -/
def Schema.creation (capabilities : Capabilities) (comments : Bool) (schema : Schema) :
    List Action :=
  let tables := inDependencyOrder capabilities.defaultSchema schema.tables
  schema.extensions.map .createExtension
    ++ schema.enums.map .createEnum
    ++ schema.sequences.map .createSequence
    ++ tables.map .createTable
    ++ schema.ownershipActions
    ++ (tables.flatMap (·.indexes)).map .createIndex
    ++ tables.flatMap (Table.completion capabilities comments)
    ++ schema.views.map .createView
    ++ schema.functions.map .createFunction
    ++ schema.triggers.map .createTrigger
    ++ policyActions [] schema.policies

/-- The statements that build a schema from nothing. -/
def Target.createSchema (target : Target) (schema : Schema) : Outcome (List Statement) :=
  target.statements (schema.creation target.capabilities target.options.comments)

def Target.completeTable (target : Target) (table : Table) : Outcome (List Statement) :=
  target.statements (table.completion target.capabilities target.options.comments)

end SchemaDdl
