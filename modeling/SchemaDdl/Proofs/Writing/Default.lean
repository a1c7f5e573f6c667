import SchemaDdl.Proofs.Success
import SchemaDdl.Sql.DefaultClause

/-!
# When a default can be written

Most defaults can be written for every column. The others ask for a type, a dialect, or a value of a
certain shape.
-/

namespace SchemaDdl

/-- Whether a JSON value may stand in a Postgres array: a scalar, or an array of such values. -/
inductive Json.Value.IsItem : Json.Value → Prop
  | null : IsItem .null
  | bool (value : Bool) : IsItem (.bool value)
  | number (value : Json.Number) : IsItem (.number value)
  | string (value : String) : IsItem (.string value)
  | array (items : List Json.Value) (each : ∀ item ∈ items, IsItem item) : IsItem (.array items)

def Sentinel.Fits (dialect : Dialect) (column : Column) : Sentinel → Prop
  | .emptyObject =>
      DeclaredType.isJson column.canonicalType = true ∨
        DeclaredType.isTextual column.canonicalType = true ∨ dialect.family = .sqlite
  | .emptyArray =>
      column.isArray = true ∨ DeclaredType.isJson column.canonicalType = true ∨
        DeclaredType.isTextual column.canonicalType = true ∨ dialect.family = .sqlite
  | .uniqueRowId => dialect = .cockroachDb
  | .genRandomUuid | .currentTimestamp | .currentDate => True

/-- Whether a literal has a text for a column: a number is finite, and the value of an array column
is an array without objects. -/
def Literal.Fits (dialect : Dialect) (column : Column) : Literal → Prop
  | .float value => value.isFinite = true
  | .json value =>
      dialect.family = .postgres → column.isArray = true →
        ∃ items, value = .array items ∧ ∀ item ∈ items, item.IsItem
  | .null | .boolean _ | .integer _ | .string _ => True

def Default.Fits (dialect : Dialect) (column : Column) : Default → Prop
  | .raw _ => True
  | .sentinel value => value.Fits dialect column
  | .literal value => value.Fits dialect column

namespace Sql

/-! ## Array texts -/

mutual
theorem isSome_arrayItem? (value : Json.Value) :
    (arrayItem? value).isSome = true ↔ value.IsItem := by
  cases value with
  | null => simp [arrayItem?, Json.Value.IsItem.null]
  | bool value => simp [arrayItem?, Json.Value.IsItem.bool]
  | number value => simp [arrayItem?, Json.Value.IsItem.number]
  | string value => simp [arrayItem?, Json.Value.IsItem.string]
  | array items =>
      rw [arrayItem?, Option.isSome_map, isSome_arrayItems? items]
      constructor
      · exact .array items
      · intro holds
        rcases holds with _ | _ | _ | _ | ⟨_, each⟩
        exact each
  | object members =>
      simp only [arrayItem?, Option.isSome_none, Bool.false_eq_true, false_iff]
      nofun
  | unreadable =>
      simp only [arrayItem?, Option.isSome_none, Bool.false_eq_true, false_iff]
      nofun

theorem isSome_arrayItems? (items : List Json.Value) :
    (arrayItems? items).isSome = true ↔ ∀ item ∈ items, item.IsItem := by
  cases items with
  | nil => simp [arrayItems?]
  | cons item items =>
      rw [List.forall_mem_cons, ← isSome_arrayItem? item, ← isSome_arrayItems? items, arrayItems?]
      cases arrayItem? item <;> cases arrayItems? items <;> simp
end

/-! ## Default clauses -/

variable {capabilities : Capabilities} {column : Column}

theorem succeeds_sentinelDefault (sentinel : Sentinel) :
    Succeeds (sentinelDefault capabilities column sentinel) ↔
      sentinel.Fits capabilities.dialect column := by
  have family : capabilities.family = capabilities.dialect.family := rfl
  cases sentinel with
  | emptyObject => simp [sentinelDefault, Sentinel.Fits, family]
  | emptyArray =>
      cases array : column.isArray with
      | true => simp [sentinelDefault, Sentinel.Fits, array]
      | false => simp [sentinelDefault, Sentinel.Fits, family, array]
  | genRandomUuid =>
      simp only [sentinelDefault, Sentinel.Fits]
      split <;> simp
  | currentTimestamp => simp [sentinelDefault, Sentinel.Fits]
  | currentDate => simp [sentinelDefault, Sentinel.Fits]
  | uniqueRowId => simp [sentinelDefault, Sentinel.Fits]

theorem succeeds_jsonDefault (value : Json.Value) :
    Succeeds (jsonDefault capabilities.family column value) ↔
      (Literal.json value).Fits capabilities.dialect column := by
  have family : capabilities.dialect.family = capabilities.family := rfl
  simp only [Literal.Fits, family, jsonDefault]
  by_cases listed : column.isArray = true ∧ capabilities.family = .postgres
  · simp only [listed, decide_true, Bool.and_self, if_true, true_implies]
    cases value with
    | array items =>
        have texts := isSome_arrayItems? items
        simp only [arrayText?, arrayItem?]
        cases found : arrayItems? items with
        | none =>
            simp only [found, Option.isSome_none, Bool.false_eq_true, false_iff] at texts
            simpa using texts
        | some _ =>
            simp only [found, Option.isSome_some, true_iff] at texts
            simpa using texts
    | _ => simp
  · have plain : (column.isArray && decide (capabilities.family = .postgres)) = false := by
      simpa using listed
    simp only [plain, Bool.false_eq_true, if_false, succeeds_ite_ok, succeeds_ok, or_true, true_iff]
    exact fun postgres array => absurd ⟨array, postgres⟩ listed

theorem succeeds_literalDefault (literal : Literal) :
    Succeeds (literalDefault capabilities.family column literal) ↔
      literal.Fits capabilities.dialect column := by
  cases literal with
  | null => simp [literalDefault, Literal.Fits]
  | boolean value => simp [literalDefault, Literal.Fits]
  | integer value => simp [literalDefault, Literal.Fits]
  | float value =>
      simp only [literalDefault, Literal.Fits]
      simp
  | string value =>
      simp only [literalDefault, Literal.Fits]
      split <;> simp
  | json value => exact succeeds_jsonDefault value

theorem succeeds_writtenDefault (value : Default) :
    Succeeds (writtenDefault capabilities column value) ↔
      value.Fits capabilities.dialect column := by
  cases value with
  | literal value => exact succeeds_literalDefault value
  | raw expression => simp [writtenDefault, Default.Fits]
  | sentinel value => exact succeeds_sentinelDefault value

theorem succeeds_defaultClause? {table : QualifiedName} :
    Succeeds (defaultClause? capabilities table column) ↔
      (column.generated = none → ∀ value, column.default = some value →
        value.Fits capabilities.dialect column) := by
  unfold defaultClause?
  cases default : column.default with
  | none => simp
  | some value =>
      cases generated : column.generated with
      | some generation => simp [Column.isGenerated, generated]
      | none =>
          have written : Succeeds (writtenDefault capabilities column value) ↔ _ :=
            succeeds_writtenDefault value
          simp only [Column.isGenerated, generated]
          cases text : writtenDefault capabilities column value <;> simp_all

theorem exists_of_defaultClause? {table : QualifiedName} {text : String}
    (written : defaultClause? capabilities table column = .ok (some text)) :
    ∃ value, column.default = some value ∧ column.isGenerated = false ∧
      writtenDefault capabilities column value = .ok text := by
  unfold defaultClause? at written
  split at written
  · cases written
  · split at written
    · cases written
    · split at written
      · cases written
        exact ⟨_, ‹_›, Bool.eq_false_iff.mpr ‹_›, ‹_›⟩
      · cases written

theorem isSome_of_defaultClause? {table : QualifiedName} {clause : Option String}
    (written : defaultClause? capabilities table column = .ok clause) :
    clause.isSome = true ↔ column.default.isSome = true ∧ column.isGenerated = false := by
  unfold defaultClause? at written
  cases present : column.default with
  | none =>
      rw [present] at written
      cases written
      simp
  | some value =>
      simp only [present] at written
      cases computed : column.isGenerated with
      | true =>
          rw [computed] at written
          cases written
          simp
      | false =>
          simp only [computed, Bool.false_eq_true, if_false] at written
          split at written
          · cases written
            simp
          · cases written

end Sql

end SchemaDdl
