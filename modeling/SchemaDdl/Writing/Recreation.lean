import SchemaDdl.Action
import SchemaDdl.Writing.Index

/-!
# Recreation of a table

SQLite changes most things of a table only by building it anew: a shadow table of the new shape
takes over the rows, the old table is dropped, and the shadow takes its name.
-/

namespace SchemaDdl

/-- A step in the recreation of a table. -/
inductive RecreationStep where
  | deferForeignKeys
  | begin
  | createShadow
  /-- Copies the values of some columns. -/
  | copy (columns : List String)
  | dropOld
  | renameShadow
  | createIndex (index : Index)
  | commit
deriving DecidableEq, Repr

namespace TableChange

/-- The new version under the name it has until the old one is gone. -/
def shadow (change : TableChange) : Table :=
  { change.new with name := s!"_{change.new.name}_new", indexes := [] }

/-- The columns whose values are taken over: those that are computed neither before nor after. -/
def copiedColumns (change : TableChange) : List String :=
  (change.new.columns.filter fun column =>
    !column.isGenerated && (change.old.column? column.name).any (!·.isGenerated)).map (·.name)

/-- The steps of a recreation, inside of a transaction where there are any. -/
def recreationSteps (change : TableChange) (transactional : Bool) : List RecreationStep :=
  List.flatten [
    [.deferForeignKeys],
    if transactional then [.begin] else [],
    [.createShadow],
    if change.copiedColumns.isEmpty then [] else [.copy change.copiedColumns],
    [.dropOld, .renameShadow],
    change.new.indexes.map .createIndex,
    if transactional then [.commit] else []]

end TableChange

namespace Target

def alwaysCreating (target : Target) : Target :=
  { target with options := { target.options with ifNotExists := false } }

def recreationStepText (target : Target) (change : TableChange) :
    RecreationStep → Outcome String
  | .deferForeignKeys => .ok "PRAGMA defer_foreign_keys = ON"
  | .begin => .ok "BEGIN"
  | .createShadow => target.alwaysCreating.createTableText change.shadow
  | .copy columns =>
      let list := target.identifierList columns
      .ok <| s!"INSERT INTO {target.qualified change.shadow.qualifiedName} ({list})"
        ++ s!" SELECT {list} FROM {target.qualified change.new.qualifiedName}"
  | .dropOld => .ok s!"DROP TABLE {target.qualified change.new.qualifiedName}"
  | .renameShadow =>
      .ok <| s!"ALTER TABLE {target.qualified change.shadow.qualifiedName}"
        ++ s!" RENAME TO {target.identifier change.new.name}"
  | .createIndex index => (target.createIndexText index).whole
  | .commit => .ok "COMMIT"

/-- The script of a recreation. -/
def recreationText (target : Target) (change : TableChange) : Outcome String := do
  let steps := change.recreationSteps (target.supports .transactionalDdl)
  let texts ← steps.mapM (target.recreationStepText change)
  return Text.join ";\n" texts

end Target

end SchemaDdl
