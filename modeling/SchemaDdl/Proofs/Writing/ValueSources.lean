import SchemaDdl.Capability.BuiltIn
import SchemaDdl.Proofs.Writing.Column

/-!
# Sources of values

What gives a column of the Postgres family its values where a row says nothing about them: a serial
type or an identity, which draw them from a sequence, an expression, or a default. PostgreSQL takes
one of them at most. A computed column is written without its default, but one that is numbered is
written with whatever else it has.
-/

namespace SchemaDdl

inductive ValueSource where
  | serial
  | identity
  | expression
  | default
deriving DecidableEq, Repr

/-- What gives a column its values, where the text of a clause begins with the words for it. -/
def ValueSource.ofClause? (text : List Char) : Option ValueSource :=
  if (Text.after? " GENERATED BY DEFAULT AS IDENTITY".toList text).isSome then some .identity
  else if (Text.after? " GENERATED ALWAYS AS (".toList text).isSome then some .expression
  else if (Text.after? " DEFAULT ".toList text).isSome then some .default
  else none

namespace ColumnDefinition

def serialTypes : List String :=
  ["SMALLSERIAL", "SERIAL", "BIGSERIAL"]

/-- What gives a column its values in its definition, in the order of writing: the texts of the type
and of the clauses are read. The type counts where it is chosen for a numbered column, and not where
it is the declared one. -/
def valueSources (target : Target) (numbered : Bool) (definition : ColumnDefinition) :
    List ValueSource :=
  (if numbered && serialTypes.contains definition.type then [.serial] else [])
    ++ (definition.clauses.map target.clauseText).filterMap (ValueSource.ofClause? ·.toList)

end ColumnDefinition

namespace Target

variable {target : Target} {table : Table} {column : Column} {definition : ColumnDefinition}

def clauseSource? : ColumnClause → Option ValueSource
  | .identity => some .identity
  | .generated _ => some .expression
  | .default _ => some .default
  | .primaryKey _ | .notNull | .unique | .references _ | .check _ | .collate _ => none

theorem ofClause?_clauseText (clause : ColumnClause) :
    ValueSource.ofClause? (target.clauseText clause).toList = clauseSource? clause := by
  rcases exists_clauseText target clause with ⟨rest, text⟩
  rw [text, String.toList_append]
  cases clause <;> rw [clauseOpening] <;> rfl

theorem filterMap_ofClause?_clauseText (clauses : List ColumnClause) :
    (clauses.map target.clauseText).filterMap (ValueSource.ofClause? ·.toList) =
      clauses.filterMap clauseSource? := by
  rw [List.filterMap_map]
  exact List.filterMap_congr fun clause _ => ofClause?_clauseText clause

theorem valueSources_keyClauses :
    (keyClauses table column).filterMap clauseSource? = [] := by
  unfold keyClauses
  cases column.primaryKey && !table.hasTableLevelPrimaryKey <;> cases column.nullable <;>
    cases column.unique <;> rfl

theorem valueSources_columnClauses (postgres : target.family = .postgres) (clause : Option String) :
    (target.columnClauses table column clause).filterMap clauseSource? =
      (if target.usesIdentity column then [ValueSource.identity] else [])
        ++ (if column.isGenerated then [ValueSource.expression] else [])
        ++ if clause.isSome then [ValueSource.default] else [] := by
  rw [filterMap_columnClauses, valueSources_keyClauses, postgres]
  cases target.usesIdentity column <;> cases generated : column.generated <;> cases clause <;>
    simp [clauseSource?, Column.isGenerated, generated]

theorem contains_serialTypes {type : String} (postgres : target.family = .postgres)
    (numbered : column.autoIncrement = true) (typed : target.columnType table column = .ok type) :
    ColumnDefinition.serialTypes.contains type = !target.usesIdentity column := by
  rw [columnType, postgres] at typed
  simp only [postgresType, numbered, Bool.not_true, Bool.false_eq_true, if_false] at typed
  rcases bind_eq_ok_iff.mp typed with ⟨base, found, typed⟩
  have integer : base = "smallint" ∨ base = "integer" ∨ base = "bigint" := by
    unfold integerBase at found
    simp only [] at found
    split at found
    · cases found
      have listed := List.contains_iff_mem.mp ‹_ = true›
      simpa only [List.mem_cons, List.not_mem_nil, or_false] using listed
    · cases found
  cases identity : target.usesIdentity column with
  | true =>
      rw [identity] at typed
      cases typed
      rcases integer with rfl | rfl | rfl <;> decide
  | false =>
      rw [identity] at typed
      cases typed
      rcases integer with rfl | rfl | rfl <;> decide

theorem valueSources_columnDefinition (postgres : target.family = .postgres)
    (defined : target.columnDefinition table column = .ok definition) :
    definition.valueSources target column.autoIncrement =
      (if column.autoIncrement then
          [if target.usesIdentity column then ValueSource.identity else ValueSource.serial] else [])
        ++ if column.isGenerated then [ValueSource.expression]
          else if column.default.isSome then [ValueSource.default] else [] := by
  rcases bind_eq_ok_iff.mp defined with ⟨type, typed, defined⟩
  rcases bind_eq_ok_iff.mp defined with ⟨clause, clauseOk, defined⟩
  cases defined
  have values : (if column.isGenerated then [ValueSource.expression] else [])
      ++ (if clause.isSome then [.default] else []) =
        if column.isGenerated then [.expression]
        else if column.default.isSome then [.default] else [] := by
    have written : clause.isSome = (column.default.isSome && !column.isGenerated) := by
      rw [Bool.eq_iff_iff, Sql.isSome_of_defaultClause? clauseOk]
      simp
    rw [written]
    cases column.isGenerated <;> cases column.default.isSome <;> rfl
  rw [ColumnDefinition.valueSources, filterMap_ofClause?_clauseText,
    valueSources_columnClauses postgres, List.append_assoc, values,
    ← List.append_assoc]
  congr 1
  cases numbered : column.autoIncrement with
  | false => simp [usesIdentity, numbered]
  | true =>
      rw [contains_serialTypes postgres numbered typed]
      cases target.usesIdentity column <;> rfl

/-- A definition of a column has one source of values at most exactly if the column is not numbered,
or it is neither computed nor has a default. -/
theorem columnText_oneSource_iff {text : String} (postgres : target.family = .postgres)
    (written : target.columnText table column = .ok text) :
    ∃ definition, target.columnDefinition table column = .ok definition ∧
      text = target.definitionText definition ∧
      ((definition.valueSources target column.autoIncrement).length ≤ 1 ↔
        (column.autoIncrement = true → column.generated = none ∧ column.default = none)) := by
  rcases bind_eq_ok_iff.mp written with ⟨definition, defined, written⟩
  cases written
  refine ⟨definition, defined, rfl, ?_⟩
  rw [valueSources_columnDefinition postgres defined, Column.isGenerated]
  cases column.autoIncrement <;> cases column.generated <;> cases column.default <;> simp

end Target

/-! ## An example -/

namespace ValueSourceExample

def pages : Table where
  name := "pages"

def identity : Column :=
  { name := "id", dataType := "integer", autoIncrement := true }

def seventh : Column :=
  { identity with default := some (.literal (.integer 7)) }

def doubled : Column :=
  { identity with generated := some { expression := "n * 2" } }

def serial : Target :=
  ⟨.postgres, {}⟩

def identities : Target :=
  ⟨.postgres, { identityColumns := true }⟩

end ValueSourceExample

open ValueSourceExample in
/-- A numbered column has its numbers from an identity and from nowhere else. -/
theorem columnText_oneSource_identity :
    identities.family = .postgres ∧
      identities.columnText pages identity =
        .ok "id integer GENERATED BY DEFAULT AS IDENTITY" ∧
      ∃ definition, identities.columnDefinition pages identity = .ok definition ∧
        (definition.valueSources identities true).length ≤ 1 := by
  have written : identities.columnText pages identity =
      .ok "id integer GENERATED BY DEFAULT AS IDENTITY" := by decide +kernel
  rcases Target.columnText_oneSource_iff rfl written with ⟨definition, defined, _, single⟩
  exact ⟨rfl, written, definition, defined, single.mpr fun _ => ⟨rfl, rfl⟩⟩

open ValueSourceExample in
/-- A numbered column is written with its default or its expression as well, whether its numbers
come from a serial type or from an identity. -/
theorem columnText_two_sources :
    serial.columnText pages seventh = .ok "id SERIAL DEFAULT 7" ∧
      identities.columnText pages seventh =
        .ok "id integer GENERATED BY DEFAULT AS IDENTITY DEFAULT 7" ∧
      serial.columnText pages doubled = .ok "id SERIAL GENERATED ALWAYS AS (n * 2) STORED" ∧
      ¬∀ (target : Target) (table : Table) (column : Column) (definition : ColumnDefinition),
        target.family = .postgres → target.columnDefinition table column = .ok definition →
          (definition.valueSources target column.autoIncrement).length ≤ 1 := by
  refine ⟨by decide +kernel, by decide +kernel, by decide +kernel, fun single => ?_⟩
  have two : ∃ definition, serial.columnDefinition pages seventh = .ok definition ∧
      ¬(definition.valueSources serial seventh.autoIncrement).length ≤ 1 := by
    decide +kernel
  rcases two with ⟨definition, defined, more⟩
  exact more (single serial pages seventh definition rfl defined)

end SchemaDdl
