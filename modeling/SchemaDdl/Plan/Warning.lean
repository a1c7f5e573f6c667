import SchemaDdl.Json.Value
import SchemaDdl.Plan.Rename
import SchemaDdl.Schema.Name

/-!
# Warnings of a plan

What a plan leaves to its reader.
-/

namespace SchemaDdl

/-- The kinds of objects that a plan creates but does not change or drop. -/
inductive ObjectKind where
  | sequence
  | view
  | function
  | trigger
  | policy
deriving DecidableEq, Repr

def ObjectKind.name : ObjectKind → String
  | .sequence => "sequence"
  | .view => "view"
  | .function => "function"
  | .trigger => "trigger"
  | .policy => "policy"

/-- Why an object is left as it is. -/
inductive ManualReason where
  | relabelled
  | changed (kind : ObjectKind)
  | removed (kind : ObjectKind)
deriving DecidableEq, Repr

def ManualReason.message : ManualReason → String
  | .relabelled => "enum labels were removed or reordered"
  | .changed kind => s!"{kind.name} definition changed"
  | .removed kind => s!"{kind.name} was removed"

/-- A note on a plan, which does not keep it from being carried out. -/
inductive PlanWarning where
  | columnRename (table : QualifiedName) (columns : Rename)
  | tableRename (tables : Rename)
  | dependencyCycle (tables : List QualifiedName)
  | manualMigration (object : String) (reason : ManualReason)
deriving DecidableEq, Repr

namespace PlanWarning

def message : PlanWarning → String
  | .columnRename table columns =>
      s!"{table.text}: '{columns.old}' -> '{columns.new}' may be a rename"
        ++ s!" (similarity {columns.similarity.toTwoPlaces})"
  | .tableRename tables =>
      s!"table '{tables.old}' -> '{tables.new}' may be a rename"
        ++ s!" (similarity {tables.similarity.toTwoPlaces})"
  | .dependencyCycle tables =>
      s!"foreign key cycle between {Text.listed (tables.map QualifiedName.text)}"
        ++ "; tables are created in declaration order"
  | .manualMigration object reason => s!"{object}: {reason.message}; migrate it manually"

def encode : PlanWarning → Json.Value
  | .columnRename table columns =>
      .object
        [("kind", .string "possible_rename"), ("table", .string table.text),
          ("old_column", .string columns.old), ("new_column", .string columns.new),
          ("similarity", .number (.float columns.similarity))]
  | .tableRename tables =>
      .object
        [("kind", .string "possible_table_rename"), ("old_table", .string tables.old),
          ("new_table", .string tables.new),
          ("similarity", .number (.float tables.similarity))]
  | .dependencyCycle tables =>
      .object
        [("kind", .string "dependency_cycle"),
          ("tables", Json.Value.ofStrings (tables.map QualifiedName.text))]
  | .manualMigration object reason =>
      .object
        [("kind", .string "object_needs_manual_migration"), ("object", .string object),
          ("reason", .string reason.message)]

end PlanWarning

end SchemaDdl
