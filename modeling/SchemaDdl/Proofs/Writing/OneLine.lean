import SchemaDdl.Capability.BuiltIn
import SchemaDdl.Proofs.Text.OneLine
import SchemaDdl.Proofs.Writing.Default
import SchemaDdl.Proofs.Writing.Table
import SchemaDdl.Schema.Model
import SchemaDdl.Writing.Action

/-!
# Definitions on one line

The strings of a schema that statements of SQLite are made of, and that the parts of its statements
are written on one line when none of these strings holds a line break; and the actions that a plan
for SQLite may hold.
-/

namespace SchemaDdl

open Text

/-! ## The strings of a schema -/

def QualifiedName.strings (name : QualifiedName) : List String :=
  name.name :: name.schema.toList

def Reference.strings (reference : Reference) : List String :=
  reference.column :: reference.table.strings

/-- The strings of a default; a line break in data is escaped when it is written. -/
def Default.strings : Default → List String
  | .literal (.string value) => [value]
  | .raw expression => [expression]
  | .literal _ | .sentinel _ => []

def Column.strings (column : Column) : List String :=
  [column.name, column.dataType] ++ column.default.toList.flatMap Default.strings
    ++ column.generated.toList.map (·.expression)
    ++ column.references.toList.flatMap Reference.strings
    ++ column.check.toList ++ column.collation.toList

def Exclusion.strings (exclusion : Exclusion) : List String :=
  exclusion.method
      :: exclusion.elements.flatMap (fun element => [element.expression, element.operator])
    ++ exclusion.predicate.toList

def ConstraintKind.strings : ConstraintKind → List String
  | .primaryKey columns | .unique columns => columns
  | .check expression => [expression]
  | .foreignKey key => key.columns ++ key.table.strings ++ key.referencedColumns
  | .exclusion held => held.strings

def Constraint.strings (constraint : Constraint) : List String :=
  constraint.name.toList ++ constraint.kind.strings

def IndexTarget.string : IndexTarget → String
  | .column name => name
  | .expression text => text

/-- The strings of an index; SQLite has no storage parameters. -/
def Index.strings (index : Index) : List String :=
  [index.name, index.method.sql] ++ index.table.strings ++ index.keys.map (·.target.string)
    ++ index.covering ++ index.predicate.toList

def Table.strings (table : Table) : List String :=
  table.qualifiedName.strings ++ table.columns.flatMap Column.strings
    ++ table.constraints.flatMap Constraint.strings ++ table.indexes.flatMap Index.strings

def View.strings (view : View) : List String :=
  view.query :: view.name.strings

def EnumType.strings (enumType : EnumType) : List String :=
  enumType.name.strings ++ enumType.values

/-- The strings of a schema that statements of SQLite are made of, triggers apart. -/
def Schema.strings (schema : Schema) : List String :=
  schema.tables.flatMap Table.strings ++ schema.enums.flatMap EnumType.strings
    ++ schema.views.flatMap View.strings

/-- Strings without line breaks. -/
def AllOneLine (strings : List String) : Prop :=
  ∀ string ∈ strings, OneLine string

instance (strings : List String) : Decidable (AllOneLine strings) :=
  inferInstanceAs (Decidable (∀ string ∈ strings, OneLine string))

section

variable {α : Type} {string : String} {strings others : List String} {items : List α}

@[simp] theorem allOneLine_nil : AllOneLine [] :=
  fun _ member => absurd member List.not_mem_nil

@[simp] theorem allOneLine_cons :
    AllOneLine (string :: strings) ↔ OneLine string ∧ AllOneLine strings :=
  List.forall_mem_cons

@[simp] theorem allOneLine_append :
    AllOneLine (strings ++ others) ↔ AllOneLine strings ∧ AllOneLine others :=
  List.forall_mem_append

@[simp] theorem allOneLine_flatMap {part : α → List String} :
    AllOneLine (items.flatMap part) ↔ ∀ item ∈ items, AllOneLine (part item) :=
  List.forall_mem_flatMap

@[simp] theorem allOneLine_map {part : α → String} :
    AllOneLine (items.map part) ↔ ∀ item ∈ items, OneLine (part item) :=
  List.forall_mem_map

@[simp] theorem allOneLine_toList {value : Option String} :
    AllOneLine value.toList ↔ ∀ string ∈ value, OneLine string := by
  simp [AllOneLine]

end

namespace Sql

theorem oneLine_qualified {family : Family} {name : QualifiedName}
    (strings : AllOneLine name.strings) : OneLine (qualified family name) := by
  simp only [QualifiedName.strings, allOneLine_cons, allOneLine_toList] at strings
  unfold qualified
  split
  · rename_i schema equal
    simp only [oneLine_append, oneLine_identifier]
    exact ⟨⟨strings.2 schema equal, by decide⟩, strings.1⟩
  · exact oneLine_identifier.mpr strings.1

/-! ## Defaults -/

theorem oneLine_expressionDefault {family : Family} {expression : String}
    (single : OneLine expression) : OneLine (expressionDefault family expression) := by
  have inside : '\n' ∉ trim expression.toList := not_mem_trim single
  unfold expressionDefault
  simp only []
  split
  · exact oneLine_ofList.mpr inside
  · rw [oneLine_append, oneLine_append]
    exact ⟨⟨by decide, oneLine_ofList.mpr inside⟩, by decide⟩

variable {capabilities : Capabilities} {column : Column}

theorem oneLine_sqliteRandomUuid : OneLine sqliteRandomUuid := by
  unfold sqliteRandomUuid
  simp only [oneLine_append]
  refine ⟨⟨⟨?_, ?_⟩, ?_⟩, ?_⟩ <;> exact oneLine_ofList.mpr (by decide)

theorem oneLine_sentinelDefault (sqlite : capabilities.family = .sqlite) {sentinel : Sentinel}
    {text : String} (written : sentinelDefault capabilities column sentinel = .ok text) :
    OneLine text := by
  cases sentinel with
  | emptyObject =>
      simp only [sentinelDefault, sqlite, typedLiteral, decide_true, Bool.or_true, if_true]
        at written
      split at written <;> (cases written; decide +kernel)
  | emptyArray =>
      simp only [sentinelDefault, sqlite, typedLiteral, reduceCtorEq, decide_false, decide_true,
        Bool.and_false, Bool.or_true, Bool.false_eq_true, if_true, if_false] at written
      split at written <;> (cases written; decide +kernel)
  | genRandomUuid =>
      simp only [sentinelDefault, sqlite] at written
      cases written
      exact oneLine_sqliteRandomUuid
  | currentTimestamp =>
      cases written
      decide +kernel
  | currentDate =>
      cases written
      decide +kernel
  | uniqueRowId =>
      rw [sentinelDefault] at written
      split at written
      · cases written
        decide +kernel
      · cases written

theorem oneLine_literalDefault {literal : Literal}
    (strings : AllOneLine (Default.literal literal).strings) {text : String}
    (written : literalDefault .sqlite column literal = .ok text) : OneLine text := by
  cases literal with
  | null =>
      cases written
      decide
  | boolean value =>
      cases written
      cases value <;> decide
  | integer value =>
      cases written
      exact oneLine_toString_int value
  | float value =>
      rw [literalDefault] at written
      split at written
      · cases written
        exact value.oneLine_toPlain
      · cases written
  | string value =>
      have single : OneLine value := by simpa [Default.strings] using strings
      rw [literalDefault] at written
      split at written
      · cases written
        exact oneLine_expressionDefault single
      · cases written
        exact oneLine_literal.mpr single
  | json value =>
      simp only [literalDefault, jsonDefault, reduceCtorEq, decide_false, Bool.and_false,
        Bool.false_eq_true, if_false, typedLiteral, ite_self] at written
      cases written
      exact oneLine_literal.mpr value.oneLine_compact

theorem oneLine_defaultClause? (sqlite : capabilities.family = .sqlite)
    (strings : ∀ value ∈ column.default, AllOneLine value.strings) {table : QualifiedName}
    {clause : Option String} (written : defaultClause? capabilities table column = .ok clause) :
    ∀ text ∈ clause, OneLine text := by
  rintro text rfl
  rcases exists_of_defaultClause? written with ⟨value, default, _, done⟩
  have strings := strings value default
  cases value with
  | raw expression =>
      cases done
      exact oneLine_expressionDefault (by simpa [Default.strings] using strings)
  | sentinel sentinel => exact oneLine_sentinelDefault sqlite done
  | literal literal =>
      rw [writtenDefault, sqlite] at done
      exact oneLine_literalDefault strings done

end Sql

namespace Target

variable {target : Target} {table : Table} {column : Column}

/-! ## Columns -/

theorem oneLine_referentialActions (onDelete onUpdate : Option ReferentialAction) :
    OneLine (referentialActions onDelete onUpdate) := by
  have each : ∀ action : ReferentialAction, OneLine action.sql := by
    intro action
    cases action <;> decide
  unfold referentialActions
  rw [oneLine_append]
  constructor
  all_goals
    apply oneLine_phraseIfSome
    intro action _
    rw [oneLine_append]
    exact ⟨by decide, each action⟩

theorem oneLine_columnType (sqlite : target.family = .sqlite) (declared : OneLine column.dataType)
    {type : String} (written : target.columnType table column = .ok type) : OneLine type := by
  have strict : OneLine (strictType column) := by
    unfold strictType
    simp only []
    split
    · decide
    · split
      · decide
      · split
        · decide
        · split <;> decide
  unfold columnType at written
  rw [sqlite] at written
  simp only [sqliteType] at written
  split at written
  · split at written
    · cases written
      decide
    · cases written
  · split at written
    · cases written
      exact strict
    · split at written
      · cases written
        decide
      · split at written
        · cases written
          decide
        · cases written
          exact declared

theorem oneLine_referencesText {reference : Reference}
    (strings : AllOneLine reference.strings) : OneLine (target.referencesText reference) := by
  rw [Reference.strings, allOneLine_cons] at strings
  have table := @Sql.oneLine_qualified target.family _ strings.2
  unfold referencesText
  simp only [toString_string, qualified, identifier, oneLine_append, table,
    Sql.oneLine_identifier, strings.1, oneLine_referentialActions, and_true]
  decide

theorem oneLine_generatedText {generation : Generation} (single : OneLine generation.expression) :
    OneLine (target.generatedText generation) := by
  unfold generatedText
  simp only [toString_string, oneLine_append, single, and_true]
  refine ⟨⟨by decide, by decide⟩, ?_⟩
  split <;> decide

end Target

/-- The strings that the words of a clause are made of. -/
def ColumnClause.strings : ColumnClause → List String
  | .identity | .primaryKey _ | .notNull | .unique => []
  | .generated generation => [generation.expression]
  | .default text => [text]
  | .references reference => reference.strings
  | .check expression => [expression]
  | .collate collation => [collation]

namespace Target

variable {target : Target} {table : Table} {column : Column}

theorem oneLine_clauseText (sqlite : target.family = .sqlite) {clause : ColumnClause}
    (strings : AllOneLine clause.strings) : OneLine (target.clauseText clause) := by
  cases clause with
  | identity =>
      rw [clauseText]
      decide
  | generated generation =>
      exact oneLine_generatedText (by simpa [ColumnClause.strings] using strings)
  | primaryKey automatic =>
      rw [clauseText, oneLine_append]
      exact ⟨by decide, oneLine_phrase fun _ => by decide⟩
  | notNull =>
      rw [clauseText]
      decide
  | unique =>
      rw [clauseText]
      decide
  | default text =>
      rw [clauseText, oneLine_append]
      exact ⟨by decide, by simpa [ColumnClause.strings] using strings⟩
  | references reference => exact oneLine_referencesText strings
  | check expression =>
      have single : OneLine expression := by simpa [ColumnClause.strings] using strings
      unfold clauseText
      simp only [toString_string, oneLine_append, single, and_true]
      decide
  | collate collation =>
      simp only [clauseText, collateText, sqlite, oneLine_append]
      exact ⟨by decide, by simpa [ColumnClause.strings] using strings⟩

theorem allOneLine_columnClauses (strings : AllOneLine column.strings) {default : Option String}
    (single : ∀ text ∈ default, OneLine text) :
    ∀ clause ∈ target.columnClauses table column default, AllOneLine clause.strings := by
  simp only [Column.strings, allOneLine_append, allOneLine_flatMap, allOneLine_map,
    allOneLine_toList, Option.mem_toList] at strings
  rcases strings with ⟨⟨⟨⟨_, generated⟩, references⟩, check⟩, collation⟩
  have optional : ∀ {α : Type} (value : Option α) (clause : α → ColumnClause),
      (∀ item ∈ value, AllOneLine (clause item).strings) →
        ∀ item ∈ (value.map clause).toList, AllOneLine item.strings := by
    intro α value clause holds item member
    rcases Option.map_eq_some_iff.mp (Option.mem_toList.mp member) with ⟨part, among, rfl⟩
    exact holds part among
  have lone : ∀ {text : String}, OneLine text → AllOneLine [text] := by
    intro text holds
    simpa using holds
  have keys : ∀ item ∈ keyClauses table column, AllOneLine item.strings := by
    unfold keyClauses
    split
    · simp [ColumnClause.strings]
    · rw [List.forall_mem_append]
      constructor <;> (split <;> simp [ColumnClause.strings])
  have identity : ∀ item ∈ (if target.family = .postgres && target.usesIdentity column
      then [ColumnClause.identity] else []), AllOneLine item.strings := by
    split <;> simp [ColumnClause.strings]
  unfold columnClauses
  simp only [List.forall_mem_append]
  exact ⟨⟨⟨⟨⟨⟨identity, optional _ _ fun item among => lone (generated item among)⟩, keys⟩,
    optional _ _ fun item among => lone (single item among)⟩, optional _ _ references⟩,
    optional _ _ fun item among => lone (check item among)⟩,
    optional _ _ fun item among => lone (collation item among)⟩

theorem oneLine_definitionText (sqlite : target.family = .sqlite)
    (strings : AllOneLine column.strings) {definition : ColumnDefinition}
    (written : target.columnDefinition table column = .ok definition) :
    OneLine (target.definitionText definition) := by
  have parts := strings
  simp only [Column.strings, allOneLine_append, allOneLine_cons, allOneLine_flatMap,
    Option.mem_toList] at parts
  rcases parts with ⟨⟨⟨⟨⟨⟨name, declared, _⟩, default⟩, _⟩, _⟩, _⟩, _⟩
  rcases bind_eq_ok_iff.mp written with ⟨type, typeWritten, written⟩
  rcases bind_eq_ok_iff.mp written with ⟨clause, clauseWritten, written⟩
  cases written
  have type := oneLine_columnType sqlite declared typeWritten
  have clauses := @allOneLine_columnClauses target table column strings clause
    (Sql.oneLine_defaultClause? sqlite default clauseWritten)
  unfold definitionText
  simp only [toString_string, identifier, oneLine_append, Sql.oneLine_identifier, name,
    type, true_and]
  refine ⟨by decide, oneLine_stringJoin ?_⟩
  intro text member
  rcases List.mem_map.mp member with ⟨item, among, rfl⟩
  exact oneLine_clauseText sqlite (clauses item among)

/-! ## Constraints and indexes -/

theorem oneLine_qualified {name : QualifiedName} (strings : AllOneLine name.strings) :
    OneLine (target.qualified name) :=
  Sql.oneLine_qualified strings

theorem oneLine_identifierList {names : List String} (strings : AllOneLine names) :
    OneLine (target.identifierList names) :=
  Sql.oneLine_identifierList strings

theorem oneLine_exclusionText {exclusion : Exclusion} (strings : AllOneLine exclusion.strings) :
    OneLine (exclusionText exclusion) := by
  simp only [Exclusion.strings, allOneLine_append, allOneLine_cons, allOneLine_flatMap,
    allOneLine_nil, and_true, allOneLine_toList] at strings
  rcases strings with ⟨⟨method, elements⟩, predicate⟩
  have listed : OneLine (listed (exclusion.elements.map fun element =>
      s!"{element.expression} WITH {element.operator}")) := by
    apply oneLine_listed
    intro text member
    rcases List.mem_map.mp member with ⟨element, among, rfl⟩
    simp only [toString_string, oneLine_append, elements element among, true_and, and_true]
    decide
  have condition : OneLine (phraseIfSome exclusion.predicate fun predicate =>
      s!" WHERE ({predicate})") := by
    apply oneLine_phraseIfSome
    intro text among
    simp only [toString_string, oneLine_append, predicate text among, and_true]
    decide
  unfold exclusionText
  simp only [toString_string, oneLine_append]
  simp only [toString_string] at listed condition
  simp only [method, listed, condition, and_true]
  decide

theorem oneLine_constraintKindText {kind : ConstraintKind} (strings : AllOneLine kind.strings) :
    OneLine (target.constraintKindText kind) := by
  cases kind with
  | primaryKey columns =>
      have listed := @oneLine_identifierList target columns strings
      unfold constraintKindText
      simp only [toString_string, oneLine_append, listed, and_true]
      decide
  | unique columns =>
      have listed := @oneLine_identifierList target columns strings
      unfold constraintKindText
      simp only [toString_string, oneLine_append, listed, and_true]
      decide
  | check expression =>
      have single : OneLine expression := by simpa [ConstraintKind.strings] using strings
      unfold constraintKindText
      simp only [toString_string, oneLine_append, single, and_true]
      decide
  | foreignKey key =>
      simp only [ConstraintKind.strings, allOneLine_append] at strings
      rcases strings with ⟨⟨columns, table⟩, referenced⟩
      have deferral : OneLine (phrase key.deferrable " DEFERRABLE INITIALLY DEFERRED") :=
        oneLine_phrase fun _ => by decide
      unfold constraintKindText foreignKeyText
      simp only [toString_string, oneLine_append, deferral,
        oneLine_identifierList columns, oneLine_qualified table, oneLine_identifierList referenced,
        oneLine_referentialActions, and_true]
      decide
  | exclusion exclusion => exact oneLine_exclusionText strings

theorem oneLine_constraintText {constraint : Constraint}
    (strings : AllOneLine constraint.strings) : OneLine (target.constraintText constraint) := by
  rw [Constraint.strings, allOneLine_append, allOneLine_toList] at strings
  rw [constraintText, oneLine_append]
  refine ⟨oneLine_phraseIfSome ?_, oneLine_constraintKindText strings.2⟩
  intro name among
  simp only [toString_string, identifier, oneLine_append, Sql.oneLine_identifier,
    strings.1 name among, and_true]
  decide

theorem oneLine_indexKeyText {key : IndexKey} (single : OneLine key.target.string) :
    OneLine (target.indexKeyText key) := by
  have place : OneLine (target.indexTargetText key.target) := by
    cases held : key.target with
    | column name =>
        rw [held] at single
        exact Sql.oneLine_identifier.mpr single
    | expression text =>
        rw [held] at single
        have single : OneLine text := single
        unfold indexTargetText
        simp only [toString_string, oneLine_append, single, and_true]
        decide
  have direction : OneLine (directionText key.direction) := by
    unfold directionText
    split <;> decide
  have nulls : OneLine (target.nullsText key.nulls) := by
    unfold nullsText
    split
    · exact oneLine_phrase fun _ => by decide
    · exact oneLine_phrase fun _ => by decide
    · decide
  rw [indexKeyText, oneLine_append, oneLine_append]
  exact ⟨⟨place, direction⟩, nulls⟩

theorem oneLine_ifNotExists : OneLine target.ifNotExists :=
  oneLine_phrase fun _ => by decide

theorem oneLine_ifExists : OneLine target.ifExists :=
  oneLine_phrase fun _ => by decide

theorem oneLine_cascade : OneLine target.cascade :=
  oneLine_phrase fun _ => by decide

theorem oneLine_concurrently : OneLine target.concurrently :=
  oneLine_phrase fun _ => by decide

theorem allOneLine_index_qualifiedName {index : Index} (strings : AllOneLine index.strings) :
    AllOneLine index.qualifiedName.strings := by
  simp only [Index.strings, allOneLine_append, allOneLine_cons, QualifiedName.strings] at strings
  rw [QualifiedName.strings, allOneLine_cons]
  exact ⟨strings.1.1.1.1.1, strings.1.1.1.2.2⟩

theorem oneLine_indexPlaceText {index : Index} (strings : AllOneLine index.strings) :
    OneLine (target.indexPlaceText index) := by
  have own := allOneLine_index_qualifiedName strings
  simp only [Index.strings, allOneLine_append, allOneLine_cons] at strings
  rcases strings with ⟨⟨⟨⟨⟨name, _⟩, table⟩, _⟩, _⟩, _⟩
  have single : OneLine index.table.name := (allOneLine_cons.mp table).1
  unfold indexPlaceText
  split
  all_goals
    simp only [toString_string, identifier, oneLine_append, Sql.oneLine_identifier, name, single,
      oneLine_qualified own, oneLine_qualified table, true_and, and_true]
    decide

theorem oneLine_indexText (sqlite : target.family = .sqlite) {index : Index}
    (strings : AllOneLine index.strings) : OneLine (target.indexText index) := by
  have place := @oneLine_indexPlaceText target index strings
  simp only [Index.strings, allOneLine_append, allOneLine_cons, allOneLine_map,
    allOneLine_toList] at strings
  rcases strings with ⟨⟨⟨⟨⟨_, method, _⟩, _⟩, keys⟩, covering⟩, predicate⟩
  have listed : OneLine (listed (index.keys.map target.indexKeyText)) := by
    apply oneLine_listed
    intro text member
    rcases List.mem_map.mp member with ⟨key, among, rfl⟩
    exact oneLine_indexKeyText (keys key among)
  have condition :
      OneLine (phraseIfSome index.predicate fun predicate => s!" WHERE {predicate}") := by
    apply oneLine_phraseIfSome
    intro text among
    simp only [toString_string, oneLine_append, predicate text among, and_true]
    decide
  have unique : OneLine (phrase index.unique "UNIQUE ") := oneLine_phrase fun _ => by decide
  have method : OneLine (phrase (index.method != .btree) s!" USING {index.method.sql}") := by
    apply oneLine_phrase
    intro _
    simp only [toString_string, oneLine_append, method, and_true]
    decide
  have included : OneLine (phrase (!index.covering.isEmpty)
      s!" INCLUDE ({target.identifierList index.covering})") := by
    apply oneLine_phrase
    intro _
    simp only [toString_string, oneLine_append, oneLine_identifierList covering, and_true]
    decide
  have storage : target.indexStorageText index = "" := by
    unfold indexStorageText
    rw [sqlite]
  simp only [toString_string] at condition method included
  unfold indexText
  simp only [toString_string, oneLine_append, storage, place, listed, condition, unique, method,
    included, oneLine_concurrently, oneLine_ifNotExists, and_true]
  decide

end Target

/-! ## Actions -/

/-- An action that a plan for SQLite may hold, triggers apart, with strings on one line. What SQLite
has no word for may hold any string. -/
def Action.Unbroken : Action → Prop
  | .createTable table => AllOneLine table.strings
  | .dropTable name => AllOneLine name.strings
  | .recreateTable change => AllOneLine change.new.strings
  | .addColumn table column _ => AllOneLine table.qualifiedName.strings ∧ AllOneLine column.strings
  | .dropColumn name column => AllOneLine name.strings ∧ OneLine column
  | .createIndex index | .dropIndex index => AllOneLine index.strings
  | .createView view => AllOneLine view.strings
  | .addEnumLabel name label before =>
      AllOneLine name.strings ∧ OneLine label ∧ ∀ text ∈ before, OneLine text
  | .createExtension _ | .createEnum _ | .createSequence _ | .createFunction _
  | .enableRowLevelSecurity _ | .createPolicy _ => True
  | _ => False

namespace Target

/-- A target of SQLite's family with none of the features that SQLite lacks. -/
structure Plain (target : Target) : Prop where
  family : target.family = .sqlite
  features : ∀ feature, target.supports feature = true → Capabilities.sqlite.supports feature = true

variable {target : Target}

theorem plain_builtIn (options : Options) : Plain ⟨Capabilities.builtIn .sqlite, options⟩ where
  family := rfl
  features _ supported := supported

theorem Plain.not_written (plain : target.Plain) {α : Type} {attempt : Attempt α} {value : α}
    (feature : Feature) (needs : Succeeds attempt → target.supports feature = true)
    (lacks : Capabilities.sqlite.supports feature = false) : attempt.whole ≠ .ok value := by
  intro written
  have supported := plain.features feature (needs ⟨value, whole_eq_ok_iff.mp written⟩)
  rw [lacks] at supported
  cases supported

end Target

end SchemaDdl
