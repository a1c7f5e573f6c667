import SchemaDdl.Change.Table
import SchemaDdl.Proofs.Plan.Matching
import SchemaDdl.Proofs.Success

/-!
# Equivalent schemas

Schemas that say the same in different words: their objects stand in another order, a type has
another spelling, a primary key is declared at another place. Such a difference is none as long as
the schema is well formed, so that every name means one object and every default equals itself.
-/

namespace SchemaDdl

/-! ## Defaults that equal themselves -/

/-- Whether every part of a JSON value can be read and no number in it is undefined. -/
inductive Json.Value.IsDefinite : Json.Value → Prop
  | null : IsDefinite .null
  | bool (value : Bool) : IsDefinite (.bool value)
  | integer (value : Int) : IsDefinite (.number (.integer value))
  | float (value : Binary64) (number : value.isNaN = false) : IsDefinite (.number (.float value))
  | string (value : String) : IsDefinite (.string value)
  | array (items : List Json.Value) (each : ∀ item ∈ items, IsDefinite item) :
      IsDefinite (.array items)
  | object (members : List (String × Json.Value)) (each : ∀ member ∈ members, IsDefinite member.2) :
      IsDefinite (.object members)

def Literal.IsDefinite : Literal → Prop
  | .float value => value.isNaN = false
  | .json value => value.IsDefinite
  | .null | .boolean _ | .integer _ | .string _ => True

/-- Whether a default has no undefined number. -/
def Default.IsDefinite : Default → Prop
  | .literal value => value.IsDefinite
  | .raw _ | .sentinel _ => True

theorem Binary64.same_self {value : Binary64} (number : value.isNaN = false) :
    value.same value = true := by
  simp [same, number]

namespace Json

mutual
theorem Value.same_self {value : Value} (definite : value.IsDefinite) :
    value.same value = true := by
  cases value with
  | null => rfl
  | bool value => simp [Value.same]
  | number number =>
      cases definite with
      | integer value => exact beq_self_eq_true value
      | float value number => exact Binary64.same_self number
  | string value => simp [Value.same]
  | array items =>
      rcases definite with _ | _ | _ | _ | _ | ⟨_, each⟩
      simpa only [Value.same] using sameItems_self each
  | object members =>
      rcases definite with _ | _ | _ | _ | _ | _ | ⟨_, each⟩
      simpa only [Value.same] using sameMembers_self each
  | unreadable => cases definite

theorem sameItems_self {items : List Value} (each : ∀ item ∈ items, item.IsDefinite) :
    sameItems items items = true := by
  cases items with
  | nil => rfl
  | cons item items =>
      rcases List.forall_mem_cons.mp each with ⟨definite, others⟩
      rw [sameItems, Value.same_self definite, sameItems_self others, Bool.and_self]

theorem sameMembers_self {members : List (String × Value)}
    (each : ∀ member ∈ members, member.2.IsDefinite) : sameMembers members members = true := by
  cases members with
  | nil => rfl
  | cons member members =>
      rcases List.forall_mem_cons.mp each with ⟨definite, others⟩
      rw [sameMembers, Value.same_self definite, sameMembers_self others, beq_self_eq_true,
        Bool.and_self, Bool.and_self]
end

end Json

theorem Literal.same_self {literal : Literal} (definite : literal.IsDefinite) :
    literal.same literal = true := by
  cases literal with
  | null => rfl
  | boolean value => exact beq_self_eq_true value
  | integer value => exact beq_self_eq_true value
  | float value => exact Binary64.same_self definite
  | string value => exact beq_self_eq_true value
  | json value => exact Json.Value.same_self definite

theorem Default.same_self {default : Default} (definite : default.IsDefinite) :
    default.same default = true := by
  cases default with
  | literal literal => exact Literal.same_self definite
  | raw expression => exact beq_self_eq_true expression
  | sentinel sentinel => exact beq_self_eq_true sentinel

/-! ## Equivalence -/

def Arranged {α β : Type} (Related : α → β → Prop) (items : List α) (others : List β) : Prop :=
  ∃ arranged, arranged.Perm items ∧ List.Forall₂ Related arranged others

namespace Arranged

variable {α β : Type} {Related : α → β → Prop} {items : List α} {others : List β}

theorem refl {Related : α → α → Prop} (reflexive : ∀ item, Related item item) (items : List α) :
    Arranged Related items items :=
  ⟨items, .refl items, List.forall₂_same.mpr fun item _ => reflexive item⟩

theorem exists_left (arranged : Arranged Related items others) {other : β}
    (member : other ∈ others) : ∃ item ∈ items, Related item other := by
  rcases arranged with ⟨arranged, perm, related⟩
  rcases exists_of_forall₂ related member with ⟨item, itemMember, itemRelated⟩
  exact ⟨item, perm.mem_iff.mp itemMember, itemRelated⟩

theorem exists_right (arranged : Arranged Related items others) {item : α} (member : item ∈ items) :
    ∃ other ∈ others, Related item other := by
  rcases arranged with ⟨arranged, perm, related⟩
  exact exists_of_forall₂ related.flip (perm.mem_iff.mpr member)

end Arranged

/-- Two columns that differ at most in the spelling of their type and in the key flag. -/
structure Column.Equivalent (old new : Column) : Prop where
  name : new.name = old.name
  type : ColumnChange.typeSignature new = ColumnChange.typeSignature old
  collation : new.collation = old.collation
  nullable : new.nullable = old.nullable
  unique : new.unique = old.unique
  autoIncrement : new.autoIncrement = old.autoIncrement
  generated : new.generated = old.generated
  default : new.default = old.default
  references : new.references = old.references
  check : new.check = old.check
  comment : new.comment = old.comment

/-- Two tables that differ at most in the order of their parts, the spelling of their types and the
place where their primary key is declared. -/
structure Table.Equivalent (old new : Table) : Prop where
  name : new.qualifiedName = old.qualifiedName
  columns : Arranged Column.Equivalent old.columns new.columns
  primaryKey : new.primaryKeyColumns = old.primaryKeyColumns
  constraints : (new.constraints.filter (!·.isPrimaryKey)).Perm
    (old.constraints.filter (!·.isPrimaryKey))
  indexes : new.indexes.Perm old.indexes
  inherits : new.inherits = old.inherits
  partitioning : new.partitioning = old.partitioning
  options : new.options = old.options
  comment : new.comment = old.comment
  platform : new.platform = old.platform

/-- Two schemas that differ at most in the order of their objects and within their tables. -/
structure Schema.Equivalent (old new : Schema) : Prop where
  tables : Arranged Table.Equivalent old.tables new.tables
  enums : new.enums.Perm old.enums
  sequences : new.sequences.Perm old.sequences
  functions : new.functions.Perm old.functions
  triggers : new.triggers.Perm old.triggers
  policies : new.policies.Perm old.policies
  views : new.views.Perm old.views
  extensions : new.extensions.Perm old.extensions

theorem Column.Equivalent.refl (column : Column) : column.Equivalent column :=
  ⟨rfl, rfl, rfl, rfl, rfl, rfl, rfl, rfl, rfl, rfl, rfl⟩

theorem Table.Equivalent.refl (table : Table) : table.Equivalent table :=
  ⟨rfl, .refl Column.Equivalent.refl _, rfl, .refl _, .refl _, rfl, rfl, rfl, rfl, rfl⟩

theorem Schema.Equivalent.refl (schema : Schema) : schema.Equivalent schema :=
  ⟨.refl Table.Equivalent.refl _, .refl _, .refl _, .refl _, .refl _, .refl _, .refl _, .refl _⟩

/-! ## Well-formed schemas -/

/-- Whether the columns and indexes of a table have names of their own, and its defaults are
definite. -/
structure Table.WellFormed (table : Table) : Prop where
  columns : Apart (·.name == ·.name) table.columns
  indexes : Apart (·.name == ·.name) table.indexes
  defaults : ∀ column ∈ table.columns, ∀ default ∈ column.default, default.IsDefinite

/-- Whether every table of a schema is well formed and every name means one object, triggers and
policies apart. -/
structure Schema.WellFormed (defaultSchema : String) (schema : Schema) : Prop where
  names : schema.NamesApart defaultSchema
  tables : ∀ table ∈ schema.tables, table.WellFormed
  enums : NamedApart defaultSchema EnumType.name schema.enums
  sequences : NamedApart defaultSchema Sequence.name schema.sequences
  functions : NamedApart defaultSchema StoredFunction.name schema.functions
  views : NamedApart defaultSchema View.name schema.views

/-- Whether no two triggers, and no two policies, have the same name on what is one table under the
default schema. -/
structure Schema.RulesApart (defaultSchema : String) (schema : Schema) : Prop where
  triggers : Apart (fun left right => left.name == right.name
    && left.table.agrees defaultSchema right.table) schema.triggers
  policies : Apart (fun left right => left.name == right.name
    && left.table.agrees defaultSchema right.table) schema.policies

end SchemaDdl
