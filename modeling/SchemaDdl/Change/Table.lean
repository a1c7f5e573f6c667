import SchemaDdl.Change.Column
import SchemaDdl.Schema.Table

/-!
# Changes of a table

How two versions of one table differ. Columns are matched by name, constraints by name and content,
and primary keys are compared as lists of columns, so that a key may move between a column and a
constraint.
-/

namespace SchemaDdl

/-- Two versions of a table. -/
structure TableChange where
  old : Table
  new : Table
deriving Repr

namespace TableChange

/-- The columns of the new version that the old one lacks. -/
def added (change : TableChange) : List Column :=
  change.new.columns.filter fun column => !change.old.hasColumn column.name

/-- The columns of the old version that the new one lacks. -/
def removed (change : TableChange) : List Column :=
  change.old.columns.filter fun column => !change.new.hasColumn column.name

def altered (change : TableChange) : List ColumnChange :=
  change.new.columns.filterMap fun column =>
    (change.old.column? column.name).bind (ColumnChange.between? · column)

/-- The constraints of the first table that the second lacks under the same name and kind, with
their names. Primary keys are left out. -/
def constraintsOnlyIn (first second : Table) : List (String × Constraint) :=
  first.namedConstraints.filter fun (name, constraint) =>
    !second.namedConstraints.any fun (otherName, other) =>
      otherName == name && other.kind == constraint.kind

def addedConstraints (change : TableChange) : List (String × Constraint) :=
  constraintsOnlyIn change.new change.old

def removedConstraints (change : TableChange) : List (String × Constraint) :=
  constraintsOnlyIn change.old change.new

def primaryKeyChanged (change : TableChange) : Bool :=
  change.old.primaryKeyColumns != change.new.primaryKeyColumns

def optionsChanged (change : TableChange) : Bool :=
  change.old.options != change.new.options
    || change.old.partitioning != change.new.partitioning
    || change.old.inherits != change.new.inherits

def platformChanged (change : TableChange) : Bool :=
  change.old.platform != change.new.platform

def commentChanged (change : TableChange) : Bool :=
  change.old.comment != change.new.comment

def isEmpty (change : TableChange) : Bool :=
  change.added.isEmpty && change.removed.isEmpty && change.altered.isEmpty
    && change.addedConstraints.isEmpty && change.removedConstraints.isEmpty
    && !change.primaryKeyChanged && !change.optionsChanged && !change.platformChanged
    && !change.commentChanged

/-- Whether the changes can lose data or be refused for rows that exist. -/
def isDestructive (change : TableChange) : Bool :=
  !change.removed.isEmpty
    || change.altered.any ColumnChange.isDestructive
    || !change.addedConstraints.isEmpty
    || change.primaryKeyChanged
    || change.added.any Column.requiresBackfill

end TableChange

end SchemaDdl
