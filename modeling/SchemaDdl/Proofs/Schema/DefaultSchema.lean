import SchemaDdl.Proofs.Schema.Equivalence

/-!
# The default schema written out

Schemas whose names all have a schema: where one is missing, the default one is put in. Two schemas
that become the same in this way differ in how their names are spelled and in nothing else.
-/

namespace SchemaDdl

/-! ## Writing out -/

variable (defaultSchema : String)

def Reference.resolve (reference : Reference) : Reference :=
  { reference with table := reference.table.resolve defaultSchema }

def Column.resolve (column : Column) : Column :=
  { column with references := column.references.map (·.resolve defaultSchema) }

def ForeignKey.resolve (key : ForeignKey) : ForeignKey :=
  { key with table := key.table.resolve defaultSchema }

def ConstraintKind.resolve (kind : ConstraintKind) : ConstraintKind :=
  match kind with
  | .foreignKey key => .foreignKey (key.resolve defaultSchema)
  | .primaryKey _ | .unique _ | .check _ | .exclusion _ => kind

def Constraint.resolve (constraint : Constraint) : Constraint :=
  { constraint with kind := constraint.kind.resolve defaultSchema }

def Index.resolve (index : Index) : Index :=
  { index with table := index.table.resolve defaultSchema }

def Table.resolve (table : Table) : Table :=
  { table with
    schema := (table.qualifiedName.resolve defaultSchema).schema
    columns := table.columns.map (·.resolve defaultSchema)
    constraints := table.constraints.map (·.resolve defaultSchema)
    indexes := table.indexes.map (·.resolve defaultSchema)
    inherits := table.inherits.map (·.resolve defaultSchema) }

def EnumType.resolve (enumType : EnumType) : EnumType :=
  { enumType with name := enumType.name.resolve defaultSchema }

def Sequence.resolve (sequence : Sequence) : Sequence :=
  { sequence with name := sequence.name.resolve defaultSchema }

def StoredFunction.resolve (function : StoredFunction) : StoredFunction :=
  { function with name := function.name.resolve defaultSchema }

def Trigger.resolve (trigger : Trigger) : Trigger :=
  { trigger with
    table := trigger.table.resolve defaultSchema
    function := trigger.function.map (·.resolve defaultSchema) }

def Policy.resolve (policy : Policy) : Policy :=
  { policy with table := policy.table.resolve defaultSchema }

def View.resolve (view : View) : View :=
  { view with name := view.name.resolve defaultSchema }

def Extension.resolve (extension : Extension) : Extension :=
  { extension with schema := some (extension.schema.getD defaultSchema) }

/-- A schema in which every name has a schema. -/
def Schema.resolve (schema : Schema) : Schema where
  tables := schema.tables.map (·.resolve defaultSchema)
  enums := schema.enums.map (·.resolve defaultSchema)
  sequences := schema.sequences.map (·.resolve defaultSchema)
  functions := schema.functions.map (·.resolve defaultSchema)
  triggers := schema.triggers.map (·.resolve defaultSchema)
  policies := schema.policies.map (·.resolve defaultSchema)
  views := schema.views.map (·.resolve defaultSchema)
  extensions := schema.extensions.map (·.resolve defaultSchema)

/-! ## Versions that differ in the spelling of names -/

variable {defaultSchema}

theorem forall₂_of_map_beq {α β : Type} [BEq β] {change : α → β} {olds news : List α}
    (alike : (olds.map change == news.map change) = true) :
    List.Forall₂ (fun old new => (change old == change new) = true) olds news := by
  induction olds generalizing news with
  | nil =>
      cases news with
      | nil => exact .nil
      | cons new news => cases alike
  | cons old olds induction =>
      cases news with
      | nil => cases alike
      | cons new news =>
          rw [List.map_cons, List.map_cons, List.cons_beq_cons, Bool.and_eq_true] at alike
          exact .cons alike.1 (induction alike.2)

theorem forall₂_of_map_eq {α β : Type} [BEq β] [LawfulBEq β] {change : α → β} {olds news : List α}
    {Related : α → α → Prop} (alike : (olds.map change == news.map change) = true)
    (related : ∀ old new, change old = change new → Related old new) :
    List.Forall₂ Related olds news :=
  (forall₂_of_map_beq alike).imp fun old new same => related old new (beq_iff_eq.mp same)

theorem Column.beq_eq (left right : Column) : (left == right) =
    (left.name == right.name && (left.dataType == right.dataType
      && (left.nullable == right.nullable && (left.primaryKey == right.primaryKey
      && (left.unique == right.unique && (left.autoIncrement == right.autoIncrement
      && (left.generated == right.generated && (left.default == right.default
      && (left.references == right.references && (left.check == right.check
      && (left.arrayDimensions == right.arrayDimensions && (left.collation == right.collation
      && left.comment == right.comment)))))))))))) :=
  rfl

theorem Table.beq_eq (left right : Table) : (left == right) =
    (left.name == right.name && (left.schema == right.schema
      && (left.columns == right.columns && (left.constraints == right.constraints
      && (left.indexes == right.indexes && (left.inherits == right.inherits
      && (left.partitioning == right.partitioning && (left.options == right.options
      && (left.comment == right.comment && left.platform == right.platform))))))))) :=
  rfl

theorem Schema.beq_eq (left right : Schema) : (left == right) =
    (left.tables == right.tables && (left.enums == right.enums
      && (left.sequences == right.sequences && (left.functions == right.functions
      && (left.triggers == right.triggers && (left.policies == right.policies
      && (left.views == right.views && left.extensions == right.extensions))))))) :=
  rfl

/-- Two versions of a column that differ at most in how the table of their reference is spelled. -/
structure Column.Alike (old new : Column) : Prop where
  name : old.name = new.name
  dataType : old.dataType = new.dataType
  nullable : old.nullable = new.nullable
  primaryKey : old.primaryKey = new.primaryKey
  unique : old.unique = new.unique
  autoIncrement : old.autoIncrement = new.autoIncrement
  generated : old.generated = new.generated
  default : (old.default == new.default) = true
  check : old.check = new.check
  arrayDimensions : old.arrayDimensions = new.arrayDimensions
  collation : old.collation = new.collation
  comment : old.comment = new.comment

theorem Column.alike_of_resolve {old new : Column}
    (same : (old.resolve defaultSchema == new.resolve defaultSchema) = true) : old.Alike new := by
  rw [Column.beq_eq] at same
  simp only [Column.resolve, Bool.and_eq_true, beq_iff_eq] at same
  rcases same with ⟨name, dataType, nullable, primaryKey, unique, autoIncrement, generated, default,
    _, check, arrayDimensions, collation, comment⟩
  exact ⟨name, dataType, nullable, primaryKey, unique, autoIncrement, generated, default, check,
    arrayDimensions, collation, comment⟩

structure Table.Alike (defaultSchema : String) (old new : Table) : Prop where
  agrees : old.qualifiedName.agrees defaultSchema new.qualifiedName = true
  columns : List.Forall₂ Column.Alike old.columns new.columns
  primaryKey : old.primaryKeyColumns = new.primaryKeyColumns
  indexes : List.Forall₂
    (fun old new : Index => old.resolve defaultSchema = new.resolve defaultSchema)
    old.indexes new.indexes
  partitioning : old.partitioning = new.partitioning
  options : old.options = new.options
  comment : old.comment = new.comment
  platform : old.platform = new.platform

@[simp] theorem Constraint.primaryKeyColumns?_resolve (constraint : Constraint) :
    (constraint.resolve defaultSchema).primaryKeyColumns? = constraint.primaryKeyColumns? := by
  rcases constraint with ⟨name, kind⟩
  cases kind <;> rfl

theorem Column.flagged_of_alike {olds news : List Column}
    (alike : List.Forall₂ Column.Alike olds news) :
    (olds.filter (·.primaryKey)).map (·.name) = (news.filter (·.primaryKey)).map (·.name) := by
  induction alike with
  | nil => rfl
  | cons first _ induction =>
      rw [List.filter_cons, List.filter_cons, first.primaryKey]
      split
      · rw [List.map_cons, List.map_cons, first.name, induction]
      · exact induction

theorem Table.alike_of_resolve {old new : Table}
    (same : (old.resolve defaultSchema == new.resolve defaultSchema) = true) :
    old.Alike defaultSchema new := by
  rw [Table.beq_eq] at same
  simp only [Table.resolve, Bool.and_eq_true] at same
  rcases same with ⟨name, schema, columns, constraints, indexes, _, partitioning, options,
    comment, platform⟩
  have alikeColumns : List.Forall₂ Column.Alike old.columns new.columns :=
    (forall₂_of_map_beq columns).imp fun _ _ => Column.alike_of_resolve
  have keys : old.constraints.findSome? Constraint.primaryKeyColumns? =
      new.constraints.findSome? Constraint.primaryKeyColumns? := by
    have found := congrArg (·.findSome? Constraint.primaryKeyColumns?) (beq_iff_eq.mp constraints)
    simpa [List.findSome?_map, Function.comp_def] using found
  refine ⟨?_, alikeColumns, ?_, ?_, beq_iff_eq.mp partitioning, beq_iff_eq.mp options,
    beq_iff_eq.mp comment, beq_iff_eq.mp platform⟩
  · rw [QualifiedName.agrees_iff]
    exact congrArg₂ QualifiedName.mk (beq_iff_eq.mp schema) (beq_iff_eq.mp name)
  · rw [primaryKeyColumns, primaryKeyColumns, keys, flaggedColumns, flaggedColumns,
      Column.flagged_of_alike alikeColumns]
  · exact forall₂_of_map_eq indexes fun _ _ equal => equal

namespace Index

variable {old new : Index}

theorem name_of_resolve (same : old.resolve defaultSchema = new.resolve defaultSchema) :
    (old.name == new.name) = true := by
  have names : (old.resolve defaultSchema).name = (new.resolve defaultSchema).name := by rw [same]
  exact beq_iff_eq.mpr names

theorem eq_iff_table_of_resolve (same : old.resolve defaultSchema = new.resolve defaultSchema) :
    old = new ↔ old.table = new.table := by
  constructor
  · exact congrArg Index.table
  · intro tables
    cases old
    cases new
    simp only [resolve, mk.injEq] at same tables ⊢
    simp only [same, tables, and_self]

end Index

structure Schema.Alike (defaultSchema : String) (old new : Schema) : Prop where
  tables : List.Forall₂ (Table.Alike defaultSchema) old.tables new.tables
  enums : List.Forall₂ (fun old new : EnumType =>
    old.name.agrees defaultSchema new.name = true ∧ old.values = new.values) old.enums new.enums
  sequences : List.Forall₂ (fun old new : Sequence =>
    old.name.agrees defaultSchema new.name = true) old.sequences new.sequences
  functions : List.Forall₂ (fun old new : StoredFunction =>
    old.name.agrees defaultSchema new.name = true) old.functions new.functions
  triggers : List.Forall₂ (fun old new : Trigger => (old.name == new.name
    && old.table.agrees defaultSchema new.table) = true) old.triggers new.triggers
  policies : List.Forall₂ (fun old new : Policy => (old.name == new.name
    && old.table.agrees defaultSchema new.table) = true) old.policies new.policies
  views : List.Forall₂ (fun old new : View =>
    old.name.agrees defaultSchema new.name = true) old.views new.views
  extensions : List.Forall₂ (fun old new : Extension =>
    (old.name == new.name) = true) old.extensions new.extensions

theorem Schema.alike_of_resolve {old new : Schema}
    (same : (old.resolve defaultSchema == new.resolve defaultSchema) = true) :
    old.Alike defaultSchema new := by
  rw [Schema.beq_eq] at same
  simp only [Schema.resolve, Bool.and_eq_true] at same
  rcases same with ⟨tables, enums, sequences, functions, triggers, policies, views, extensions⟩
  refine ⟨?_, ?_, ?_, ?_, ?_, ?_, ?_, ?_⟩
  · exact (forall₂_of_map_beq tables).imp fun _ _ => Table.alike_of_resolve
  · refine forall₂_of_map_eq enums fun old new equal => ⟨?_, ?_⟩
    · exact (QualifiedName.agrees_iff ..).mpr (congrArg EnumType.name equal)
    · have values : (old.resolve defaultSchema).values = (new.resolve defaultSchema).values := by
        rw [equal]
      exact values
  · refine forall₂_of_map_eq sequences fun old new equal => ?_
    exact (QualifiedName.agrees_iff ..).mpr (congrArg Sequence.name equal)
  · refine forall₂_of_map_eq functions fun old new equal => ?_
    exact (QualifiedName.agrees_iff ..).mpr (congrArg StoredFunction.name equal)
  · refine forall₂_of_map_eq triggers fun old new equal => Bool.and_eq_true_iff.mpr ⟨?_, ?_⟩
    · have names : (old.resolve defaultSchema).name = (new.resolve defaultSchema).name := by
        rw [equal]
      exact beq_iff_eq.mpr names
    · exact (QualifiedName.agrees_iff ..).mpr (congrArg Trigger.table equal)
  · refine forall₂_of_map_eq policies fun old new equal => Bool.and_eq_true_iff.mpr ⟨?_, ?_⟩
    · have names : (old.resolve defaultSchema).name = (new.resolve defaultSchema).name := by
        rw [equal]
      exact beq_iff_eq.mpr names
    · exact (QualifiedName.agrees_iff ..).mpr (congrArg Policy.table equal)
  · refine forall₂_of_map_eq views fun old new equal => ?_
    exact (QualifiedName.agrees_iff ..).mpr (congrArg View.name equal)
  · refine forall₂_of_map_eq extensions fun old new equal => ?_
    have names : (old.resolve defaultSchema).name = (new.resolve defaultSchema).name := by
      rw [equal]
    exact beq_iff_eq.mpr names

end SchemaDdl
