import SchemaDdl.Proofs.Script.Transactions
import SchemaDdl.Proofs.Writing.Index
import SchemaDdl.Proofs.Writing.Objects
import SchemaDdl.Proofs.Writing.OneLine

/-!
# Statements that the rules for D1 leave alone

A statement of SQLite stands on one line, but for a table definition, which has a line for each of
its parts. None of these lines opens with a word of a transaction or a pragma, for they open with a
verb of their own or with a name.
-/

namespace SchemaDdl.Script

open Text

def QuietText (text : String) : Prop :=
  Quiet platformWords text.toList

theorem QuietText.append {text : String} (quiet : QuietText text) (more : String) :
    QuietText (text ++ more) := by
  unfold QuietText
  rw [String.toList_append]
  exact Quiet.append quiet more.toList

def statementLines (text : String) : List (List Char) :=
  lines (text.toList ++ [';'])

def CalmText (text : String) : Prop :=
  ∀ line ∈ statementLines text, Calm line

theorem calmText_of_oneLine {text : String} (single : OneLine text) (quiet : QuietText text) :
    CalmText text := by
  intro line member
  have alone : '\n' ∉ text.toList ++ [';'] := by simpa [OneLine] using single
  rw [statementLines, lines_of_not_mem alone, List.mem_singleton] at member
  rw [member]
  exact calm_of_quiet (Quiet.append quiet [';'])

theorem quiet_create : QuietText "CREATE " := fun _ => rfl

theorem quiet_alter : QuietText "ALTER " := fun _ => rfl

theorem quiet_close : QuietText ")" := fun _ => rfl

theorem quiet_primaryKey : QuietText "PRIMARY KEY (" := fun _ => rfl

theorem quiet_unique : QuietText "UNIQUE (" := fun _ => rfl

theorem quiet_check : QuietText "CHECK (" := fun _ => rfl

theorem quiet_foreignKey : QuietText "FOREIGN KEY (" := fun _ => rfl

theorem quiet_exclude : QuietText "EXCLUDE USING " := fun _ => rfl

theorem quiet_constraint : QuietText "CONSTRAINT " := fun _ => rfl

theorem calm_of_mem_lines_intercalate {texts : List String} {separator : String}
    (between : OneLine separator) (single : ∀ text ∈ texts, OneLine text)
    (quiet : ∀ text ∈ texts, QuietText text) :
    ∀ line ∈ lines ((separator ++ "\n").intercalate texts).toList, Calm line := by
  induction texts with
  | nil =>
      rw [String.intercalate_nil]
      intro line member
      rw [List.mem_singleton.mp member]
      exact calm_nil
  | cons text others induction =>
      rw [List.forall_mem_cons] at single quiet
      cases others with
      | nil =>
          rw [String.intercalate_singleton, lines_of_not_mem single.1]
          simpa using calm_of_quiet quiet.1
      | cons next others =>
          have split : ((separator ++ "\n").intercalate (text :: next :: others)).toList =
              (text ++ separator).toList ++ '\n' ::
                ((separator ++ "\n").intercalate (next :: others)).toList := by
            rw [String.intercalate_cons_cons]
            simp [String.toList_append]
          have alone : '\n' ∉ (text ++ separator).toList := by
            exact oneLine_append.mpr ⟨single.1, between⟩
          rw [split, lines_append_newline, lines_of_not_mem alone, List.singleton_append,
            List.forall_mem_cons]
          exact ⟨calm_of_quiet (quiet.1.append separator), induction single.2 quiet.2⟩

end SchemaDdl.Script

namespace SchemaDdl.Target

open Text Script

variable {target : Target} {table : Table}

/-! ## Table definitions -/

theorem mem_of_mem_partition {α : Type} {attempts : List (Attempt α)} {value : α}
    (member : value ∈ (Attempt.partition attempts).2) : .ok value ∈ attempts := by
  induction attempts with
  | nil => cases member
  | cons attempt attempts induction =>
      cases attempt with
      | error defect => exact List.mem_cons_of_mem _ (induction member)
      | ok first =>
          rcases List.mem_cons.mp member with rfl | member
          · exact List.mem_cons_self
          · exact List.mem_cons_of_mem _ (induction member)

theorem quiet_foreignKeyText (key : ForeignKey) : QuietText (target.foreignKeyText key) := by
  unfold foreignKeyText
  iterate 5 apply QuietText.append
  exact quiet_foreignKey

theorem quiet_constraintText (constraint : Constraint) :
    QuietText (target.constraintText constraint) := by
  unfold constraintText phraseIfSome
  split
  · iterate 3 apply QuietText.append
    exact quiet_constraint
  · rw [String.empty_append]
    unfold constraintKindText
    cases constraint.kind with
    | primaryKey columns => exact (quiet_primaryKey.append _).append _
    | unique columns => exact (quiet_unique.append _).append _
    | check expression => exact (quiet_check.append _).append _
    | foreignKey key => exact quiet_foreignKeyText key
    | exclusion exclusion =>
        unfold exclusionText
        iterate 5 apply QuietText.append
        exact quiet_exclude

theorem quiet_definitionText (sqlite : target.family = .sqlite) (definition : ColumnDefinition) :
    QuietText (target.definitionText definition) := by
  have name := quiet_identifier definition.name
  rw [← sqlite] at name
  have opening : QuietText (target.identifier definition.name ++ " ") := by
    unfold QuietText
    rw [String.toList_append]
    exact name
  unfold definitionText
  iterate 2 apply QuietText.append
  exact opening

theorem lineText_spec (sqlite : target.family = .sqlite) (strings : AllOneLine table.strings)
    {line : TableLine} (written : .ok line ∈ target.tableLines table) :
    OneLine (target.lineText line) ∧ QuietText (target.lineText line) := by
  simp only [Table.strings, allOneLine_append, allOneLine_flatMap] at strings
  rcases strings with ⟨⟨⟨_, columns⟩, constraints⟩, _⟩
  rcases List.mem_append.mp written with written | written
  · rcases List.mem_append.mp written with written | written
    · rcases List.mem_map.mp written with ⟨column, among, equal⟩
      rcases map_eq_ok_iff.mp equal with ⟨definition, defined, rfl⟩
      exact ⟨oneLine_definitionText sqlite (columns column among) defined,
        quiet_definitionText sqlite definition⟩
    · rcases List.mem_map.mp written with ⟨key, among, equal⟩
      cases equal
      unfold flaggedKeyLines at among
      split at among
      · rw [List.mem_singleton.mp among]
        have listed : OneLine (target.identifierList table.flaggedColumns) := by
          apply oneLine_identifierList
          intro name member
          rcases List.mem_map.mp member with ⟨column, among, rfl⟩
          exact columns column (List.mem_filter.mp among).1 _ List.mem_cons_self
        unfold lineText
        simp only [toString_string, oneLine_append, listed, and_true]
        exact ⟨by decide, (quiet_primaryKey.append _).append _⟩
      · cases among
  · rcases List.mem_map.mp written with ⟨constraint, among, written⟩
    rcases map_eq_ok_iff.mp written with ⟨_, _, rfl⟩
    exact ⟨oneLine_constraintText (constraints constraint among), quiet_constraintText constraint⟩

theorem oneLine_createTableVerb : OneLine (target.createTableVerb table) := by
  unfold createTableVerb
  split
  · decide
  · split <;> decide

theorem quiet_createTableVerb : QuietText (target.createTableVerb table) := by
  unfold createTableVerb
  split
  · exact fun _ => rfl
  · split
    · exact fun _ => rfl
    · exact fun _ => rfl

theorem oneLine_tableEnd (sqlite : target.family = .sqlite) {ending : String}
    (written : target.tableEnd table = .ok ending) : OneLine ending := by
  unfold tableEnd at written
  rw [sqlite] at written
  simp only [sqliteTableEnd] at written
  split at written
  · cases written
  · split at written
    · cases written
    · cases written
      apply oneLine_phrase
      intro _
      rw [oneLine_append]
      refine ⟨by decide, oneLine_listed ?_⟩
      rw [List.forall_mem_append]
      constructor <;> (split <;> decide)

theorem calm_tableText {parts : List TableLine} {ending : String}
    (strings : AllOneLine table.qualifiedName.strings)
    (each : ∀ part ∈ parts, OneLine (target.lineText part) ∧ QuietText (target.lineText part))
    (single : OneLine ending) : CalmText (target.tableText table parts ending) := by
  let head := target.createTableVerb table ++ target.ifNotExists
    ++ target.qualified table.qualifiedName ++ " ("
  let texts := parts.map fun part => "    " ++ target.lineText part
  have whole : (target.tableText table parts ending).toList ++ [';'] =
      head.toList ++ '\n' :: ((("," ++ "\n").intercalate texts).toList ++
        '\n' :: (")" ++ ending ++ ";").toList) := by
    simp only [tableText, join, head, texts, String.toList_append, List.append_assoc]
    rfl
  have headSingle : OneLine head := by
    simp only [head, oneLine_append, oneLine_createTableVerb, oneLine_ifNotExists,
      oneLine_qualified strings, true_and]
    decide
  have endSingle : OneLine (")" ++ ending ++ ";") := by
    simp only [oneLine_append, single, and_true]
    decide
  intro line member
  rw [statementLines, whole, lines_append_newline, lines_append_newline,
    lines_of_not_mem headSingle, lines_of_not_mem endSingle, List.mem_append, List.mem_append,
    List.mem_singleton, List.mem_singleton] at member
  rcases member with rfl | member | rfl
  · apply calm_of_quiet
    apply QuietText.append
    apply QuietText.append
    apply QuietText.append
    exact quiet_createTableVerb
  · apply calm_of_mem_lines_intercalate (by decide) _ _ line member
    · intro text among
      rcases List.mem_map.mp among with ⟨part, member, rfl⟩
      rw [oneLine_append]
      exact ⟨by decide, (each part member).1⟩
    · intro text among
      rcases List.mem_map.mp among with ⟨part, member, rfl⟩
      have quiet := (each part member).2
      unfold QuietText
      rw [String.toList_append]
      exact (((Quiet.indent quiet rfl).indent rfl).indent rfl).indent rfl
  · apply calm_of_quiet
    apply QuietText.append
    apply QuietText.append
    exact quiet_close

theorem calm_createTableText (sqlite : target.family = .sqlite)
    (strings : AllOneLine table.strings) {text : String}
    (written : target.createTableText table = .ok text) : CalmText text := by
  unfold createTableText at written
  split at written
  · cases written
  · simp only [] at written
    split at written
    · cases written
    · cases written
      have name : AllOneLine table.qualifiedName.strings := by
        simp only [Table.strings, allOneLine_append] at strings
        exact strings.1.1.1
      apply calm_tableText name
      · intro part member
        exact lineText_spec sqlite strings (mem_of_mem_partition member)
      · apply oneLine_stringJoin
        intro ending member
        have written := mem_of_mem_partition member
        rw [List.mem_singleton] at written
        exact oneLine_tableEnd sqlite written.symm

/-! ## Statements on one line -/

theorem calm_alterTableText {name : QualifiedName} (strings : AllOneLine name.strings)
    {action : String} (single : OneLine action) : CalmText (target.alterTableText name action) := by
  apply calmText_of_oneLine
  · unfold alterTableText
    simp only [toString_string, oneLine_append, oneLine_qualified strings, single, and_true]
    decide
  · unfold alterTableText
    iterate 3 apply QuietText.append
    exact fun _ => rfl

theorem calm_addColumnText (sqlite : target.family = .sqlite) {column : Column}
    (name : AllOneLine table.qualifiedName.strings) (strings : AllOneLine column.strings)
    {text : String} (written : target.addColumnText table column = .ok text) : CalmText text := by
  rcases bind_eq_ok_iff.mp written with ⟨definition, defined, written⟩
  rcases bind_eq_ok_iff.mp defined with ⟨parts, partsWritten, defined⟩
  cases defined
  cases written
  have single := oneLine_definitionText sqlite strings partsWritten
  apply calm_alterTableText name
  simp only [toString_string, oneLine_append, single, and_true]
  decide

theorem calm_dropColumnText {name : QualifiedName} (strings : AllOneLine name.strings)
    {column : String} (single : OneLine column) : CalmText (target.dropColumnText name column) := by
  apply calm_alterTableText strings
  simp only [toString_string, oneLine_append, identifier, Sql.oneLine_identifier, single, and_true]
  decide

theorem calm_dropTableText {name : QualifiedName} (strings : AllOneLine name.strings) :
    CalmText s!"DROP TABLE {target.ifExists}{target.qualified name}{target.cascade}" := by
  apply calmText_of_oneLine
  · simp only [toString_string, oneLine_append, oneLine_ifExists, oneLine_qualified strings,
      oneLine_cascade, and_true]
    decide
  · iterate 3 apply QuietText.append
    exact fun _ => rfl

theorem calm_indexText (sqlite : target.family = .sqlite) {index : Index}
    (strings : AllOneLine index.strings) : CalmText (target.indexText index) := by
  apply calmText_of_oneLine (oneLine_indexText sqlite strings)
  unfold indexText
  iterate 10 apply QuietText.append
  exact quiet_create

theorem calm_dropIndexText {index : Index} (strings : AllOneLine index.strings) :
    CalmText (target.dropIndexText index) := by
  have name := allOneLine_index_qualifiedName strings
  apply calmText_of_oneLine
  · unfold dropIndexText
    simp only [oneLine_append, oneLine_concurrently, oneLine_ifExists,
      oneLine_qualified name, oneLine_cascade, and_true]
    decide
  · unfold dropIndexText
    iterate 4 apply QuietText.append
    exact fun _ => rfl

theorem calm_createViewText {view : View} (strings : AllOneLine view.strings) {text : String}
    (written : target.createViewText view = .ok text) : CalmText text := by
  rw [View.strings, allOneLine_cons] at strings
  have wording : text = "CREATE " ++ phrase view.materialized "MATERIALIZED " ++ "VIEW "
      ++ target.ifNotExists ++ s!"{target.qualified view.name} AS {view.query}" := by
    unfold createViewText at written
    split at written
    all_goals
      rcases bind_eq_ok_iff.mp written with ⟨_, _, written⟩
      cases written
      rfl
  have materialized : OneLine (phrase view.materialized "MATERIALIZED ") :=
    oneLine_phrase fun _ => by decide
  rw [wording]
  apply calmText_of_oneLine
  · simp only [toString_string, oneLine_append, materialized, oneLine_ifNotExists,
      oneLine_qualified strings.2, strings.1, true_and, and_true]
    decide
  · iterate 4 apply QuietText.append
    exact quiet_create

theorem calm_addEnumLabelText {name : QualifiedName} (strings : AllOneLine name.strings)
    {label : String} (single : OneLine label) {before : Option String}
    (next : ∀ text ∈ before, OneLine text) :
    CalmText (target.addEnumLabelText name label before) := by
  have place : OneLine (phraseIfSome before fun next => s!" BEFORE {Sql.literal next}") := by
    apply oneLine_phraseIfSome
    intro text among
    simp only [toString_string, oneLine_append, Sql.oneLine_literal, next text among, and_true]
    decide
  simp only [toString_string] at place
  apply calmText_of_oneLine
  · unfold addEnumLabelText
    simp only [toString_string, oneLine_append, oneLine_qualified strings,
      Sql.oneLine_literal, single, place, and_true]
    decide
  · unfold addEnumLabelText
    iterate 4 apply QuietText.append
    exact quiet_alter

end SchemaDdl.Target

/-! ## Actions -/

namespace SchemaDdl.Target

open Script

variable {target : Target}

theorem calm_actionText (plain : target.Plain) {action : Action} (unbroken : action.Unbroken)
    (kept : ∀ change, action ≠ .recreateTable change) {text : String}
    (written : target.actionText action = .ok text) : CalmText text := by
  cases action with
  | createTable table => exact calm_createTableText plain.family unbroken written
  | dropTable name =>
      cases written
      exact calm_dropTableText unbroken
  | recreateTable change => exact absurd rfl (kept change)
  | addColumn table column again =>
      exact calm_addColumnText plain.family unbroken.1 unbroken.2 (whole_eq_ok_iff.mp written)
  | dropColumn name column =>
      cases written
      exact calm_dropColumnText unbroken.1 unbroken.2
  | createIndex index =>
      rcases bind_eq_ok_iff.mp (whole_eq_ok_iff.mp written) with ⟨_, _, written⟩
      cases written
      exact calm_indexText plain.family unbroken
  | dropIndex index =>
      cases written
      exact calm_dropIndexText unbroken
  | createView view => exact calm_createViewText unbroken (whole_eq_ok_iff.mp written)
  | addEnumLabel name label before =>
      cases written
      exact calm_addEnumLabelText unbroken.1 unbroken.2.1 unbroken.2.2
  | createExtension extension =>
      exact absurd written
        (plain.not_written .extensions succeeds_createExtensionText.mp (by decide))
  | createEnum enumType =>
      exact absurd written (plain.not_written .enums succeeds_createEnumText.mp (by decide))
  | createSequence sequence =>
      exact absurd written (plain.not_written .sequences succeeds_createSequenceText.mp (by decide))
  | createFunction function =>
      exact absurd written (plain.not_written .functions
        (fun succeeds => (succeeds_createFunctionText.mp succeeds).1) (by decide))
  | enableRowLevelSecurity table =>
      exact absurd written
        (plain.not_written .rowLevelSecurity succeeds_enableRowLevelSecurityText.mp (by decide))
  | createPolicy policy =>
      exact absurd written
        (plain.not_written .rowLevelSecurity succeeds_createPolicyText.mp (by decide))
  | _ => exact unbroken.elim

end SchemaDdl.Target
