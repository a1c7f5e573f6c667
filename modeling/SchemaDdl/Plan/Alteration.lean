import SchemaDdl.Writing.Action

/-!
# Altering a table

The actions that turn one version of a table into another. The Postgres family changes everything in
place; SQLite adds and drops columns in place where that is safe, and builds the table anew for all
other changes.
-/

namespace SchemaDdl

/-! ## Column constraints as table constraints -/

/-- The kinds of constraints that a column may carry. -/
inductive ColumnConstraint where
  | unique
  | foreignKey
  | check
deriving DecidableEq, Repr

namespace ColumnConstraint

/-- The ending of the name that the database gives to a constraint of the kind. -/
def ending : ColumnConstraint → String
  | .unique => "key"
  | .foreignKey => "fkey"
  | .check => "check"

def kind? (column : Column) : ColumnConstraint → Option ConstraintKind
  | .unique => if column.unique then some (.unique [column.name]) else none
  | .check => column.check.map ConstraintKind.check
  | .foreignKey => column.references.map fun reference =>
      .foreignKey {
        columns := [column.name]
        table := reference.table
        referencedColumns := [reference.column]
        onDelete := reference.onDelete
        onUpdate := reference.onUpdate }

/-- The name of the constraint in the database. -/
def name (table : Table) (column : Column) (constraint : ColumnConstraint) : String :=
  s!"{table.name}_{column.name}_{constraint.ending}"

def changed (change : ColumnChange) : ColumnConstraint → Bool
  | .unique => change.uniqueChanged
  | .foreignKey => change.referencesChanged
  | .check => change.checkChanged

/-- The actions that drop, add or replace a constraint of a column. -/
def actions (old new : Table) (change : ColumnChange) (constraint : ColumnConstraint) :
    List Action :=
  let oldName := constraint.name old change.old
  let added (kind : ConstraintKind) : Constraint :=
    { name := some (constraint.name new change.new), kind }
  if constraint.changed change then
    match constraint.kind? change.old, constraint.kind? change.new with
    | none, none => []
    | some _, none => [.dropConstraint new.qualifiedName oldName change.new.name]
    | none, some kind => [.addConstraint new (added kind) change.new.name]
    | some _, some kind => [.replaceConstraint new oldName (added kind) change.new.name]
  else
    []

end ColumnConstraint

/-! ## The Postgres family -/

def actionIf (condition : Bool) (action : Action) : List Action :=
  if condition then [action] else []

namespace TableChange

/-- The actions for a column that is numbered by the database before or after, but not both. -/
def identityActions (change : TableChange) (column : ColumnChange) : List Action :=
  if !column.identityChanged then
    []
  else if column.new.autoIncrement then
    actionIf (!DeclaredType.isInteger column.old.canonicalType)
        (.alterColumn change.new column.new .convertToInteger)
      ++ [.alterColumn change.new column.new .addIdentity]
  else
    [.alterColumn change.new column.new .dropIdentity]

/-- The actions for a column of both versions. A new or changed expression takes the place of the
column as a whole. -/
def columnActions (change : TableChange) (comments : Bool) (column : ColumnChange) : List Action :=
  let table := change.new.qualifiedName
  let alter (action : ColumnAction) : Action := .alterColumn change.new column.new action
  if column.regenerates then
    [.dropColumn table column.new.name, .addColumn change.new column.new true]
  else
    actionIf column.typeChanged (alter (.setType !column.widening))
      ++ actionIf column.nullabilityChanged
        (alter (if column.new.nullable then .dropNotNull else .setNotNull))
      ++ actionIf (column.defaultChanged && !column.new.autoIncrement) (alter .setDefault)
      ++ change.identityActions column
      ++ actionIf column.generatedChanged (alter .dropExpression)
      ++ [ColumnConstraint.unique, .foreignKey, .check].flatMap
        (ColumnConstraint.actions change.old change.new column)
      ++ actionIf (column.commentChanged && comments)
        (.commentColumn table column.new.name column.new.comment)

def addedColumn (change : TableChange) (column : Column) : Column :=
  if change.primaryKeyChanged then { column with primaryKey := false } else column

def replaces (change : TableChange) (name : String) : Bool :=
  change.addedConstraints.any (·.1 == name) && change.removedConstraints.any (·.1 == name)

def removedConstraintActions (change : TableChange) : List Action :=
  (change.removedConstraints.filter fun (name, _) => !change.replaces name).map
    fun (name, _) => .dropConstraint change.new.qualifiedName name name

def addedConstraintActions (change : TableChange) : List Action :=
  change.addedConstraints.map fun (name, constraint) =>
    let named : Constraint := { constraint with name := some name }
    if change.replaces name then .replaceConstraint change.new name named name
    else .addConstraint change.new named name

/-- The changes of the options of a table that nothing can carry out. -/
def refusals (change : TableChange) : List Action :=
  let table := change.new.qualifiedName
  actionIf (change.old.partitioning != change.new.partitioning)
      (.refuse table .changedPartitioning)
    ++ actionIf (change.old.inherits != change.new.inherits) (.refuse table .changedInheritance)
    ++ actionIf (change.old.options.temporary != change.new.options.temporary)
      (.refuse table .changedTemporary)

def resetKeys (change : TableChange) : List String :=
  (change.old.options.parameters.filter fun parameter =>
    !change.new.options.parameters.any (·.key == parameter.key)).map (·.key)

def setParameters (change : TableChange) : List StorageOption :=
  change.new.options.parameters.filter fun parameter =>
    !change.old.options.parameters.contains parameter

def settingIf (condition : Bool) (setting : TableSetting) : List TableSetting :=
  if condition then [setting] else []

/-- The settings that change with the options of a table, as far as they are supported. -/
def optionSettings (change : TableChange) (capabilities : Capabilities) : List TableSetting :=
  let old := change.old.options
  let new := change.new.options
  settingIf (old.unlogged != new.unlogged && capabilities.supports .unloggedTables)
      (if new.unlogged then .setUnlogged else .setLogged)
    ++ settingIf (old.tablespace != new.tablespace && capabilities.supports .tablespaces)
      (.tablespace new.tablespace)
    ++ settingIf (!change.resetKeys.isEmpty) (.reset change.resetKeys)
    ++ settingIf (!change.setParameters.isEmpty) (.set change.setParameters)

/-- The settings of the platform that change, as far as they are supported. -/
def platformSettings (change : TableChange) (capabilities : Capabilities) : List TableSetting :=
  let old := change.old.platform
  let new := change.new.platform
  settingIf (old.locality != new.locality && capabilities.supports .locality)
      (.locality new.locality)
    ++ settingIf (old.zoneConfig != new.zoneConfig && !new.zoneConfig.isEmpty
        && capabilities.supports .zoneConfig)
      (.zone new.zoneConfig)

/-- The actions that turn the old version into the new one, all of them in place. -/
def postgresActions (change : TableChange) (capabilities : Capabilities) (comments : Bool) :
    List Action :=
  let table := change.new.qualifiedName
  change.added.map (fun column => .addColumn change.new (change.addedColumn column) false)
    ++ change.removed.map (fun column => .dropColumn table column.name)
    ++ change.altered.flatMap (change.columnActions comments)
    ++ change.removedConstraintActions
    ++ actionIf change.primaryKeyChanged (.replacePrimaryKey change)
    ++ change.addedConstraintActions
    ++ (if change.optionsChanged then
        change.refusals ++ (change.optionSettings capabilities).map (.setTable table)
      else [])
    ++ (change.platformSettings capabilities).map (.setTable table)
    ++ actionIf (change.commentChanged && comments) (.commentTable table change.new.comment)

/-! ## SQLite -/

/-- Whether a default is a constant other than null; none when it is neither a constant nor null. -/
def hasConstantDefault? : Option Default → Option Bool
  | none => some false
  | some (.literal .null) => some false
  | some (.literal (.string value)) => if Sql.isExpression value then none else some true
  | some (.literal _) => some true
  | some (.raw _) | some (.sentinel _) => none

/-- Whether SQLite takes a column into a table in place: it has no key, no number of its own and no
stored expression, its default is constant, existing rows get a value, and a reference starts with
nulls. -/
def isSafeToAdd (column : Column) : Bool :=
  !column.primaryKey && !column.unique && !column.autoIncrement
    && !column.generated.any (·.stored)
    && match hasConstantDefault? column.default with
      | none => false
      | some constant =>
          !(column.references.isSome && constant)
            && (column.nullable || constant || column.isGenerated)

/-- Whether the table has to be built anew. -/
def requiresRecreation (change : TableChange) (capabilities : Capabilities) : Bool :=
  match capabilities.family with
  | .postgres => false
  | .sqlite =>
      (!change.removed.isEmpty && !capabilities.supports .dropColumn)
        || change.altered.any ColumnChange.isStructural
        || !change.addedConstraints.isEmpty
        || !change.removedConstraints.isEmpty
        || change.primaryKeyChanged
        || change.optionsChanged
        || change.added.any (!isSafeToAdd ·)

/-- The actions of SQLite, where a comment or a setting of a platform is nothing to change. -/
def sqliteActions (change : TableChange) (capabilities : Capabilities) : List Action :=
  if change.requiresRecreation capabilities then
    [.recreateTable change]
  else
    change.added.map (fun column => .addColumn change.new column false)
      ++ change.removed.map (fun column => .dropColumn change.new.qualifiedName column.name)

/-- The actions that turn the old version of a table into the new one. -/
def actions (change : TableChange) (capabilities : Capabilities) (comments : Bool) :
    List Action :=
  if change.isEmpty then
    []
  else
    match capabilities.family with
    | .postgres =>
        change.postgresActions capabilities (comments && capabilities.supports .comments)
    | .sqlite => change.sqliteActions capabilities

end TableChange

/-- The statements that alter a table. -/
def Target.alterTable (target : Target) (change : TableChange) : Outcome (List Statement) :=
  target.statements (change.actions target.capabilities target.options.comments)

end SchemaDdl
