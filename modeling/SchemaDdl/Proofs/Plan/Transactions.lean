import SchemaDdl.Proofs.Plan.Phases
import SchemaDdl.Proofs.Plan.Twins
import SchemaDdl.Proofs.Writing.Calm

/-!
# Plans with and without transactions

SQLite builds a table anew inside a transaction, and D1 knows none. A plan for SQLite, adapted for
D1, is the plan for D1: what its recreations have more is what the rules take out, and they take out
nothing else, however columns and tables are named.
-/

namespace SchemaDdl

open Text Script

/-! ## Lines of joined texts -/

theorem toList_intercalate_cons {separator text : String} {others : List String}
    (more : others ≠ []) :
    (separator.intercalate (text :: others)).toList =
      text.toList ++ separator.toList ++ (separator.intercalate others).toList := by
  rw [String.intercalate_cons_of_ne_nil more, String.toList_append, String.toList_append]

theorem lines_intercalate {texts : List String} (nonempty : texts ≠ []) :
    lines ((";\n".intercalate texts).toList ++ [';']) = texts.flatMap statementLines := by
  induction texts with
  | nil => exact absurd rfl nonempty
  | cons text others induction =>
      cases others with
      | nil =>
          rw [String.intercalate_singleton, List.flatMap_singleton]
          rfl
      | cons next others =>
          have more : next :: others ≠ [] := List.cons_ne_nil _ _
          have split : (";\n".intercalate (text :: next :: others)).toList ++ [';'] =
              (text.toList ++ [';']) ++ '\n' ::
                ((";\n".intercalate (next :: others)).toList ++ [';']) := by
            rw [toList_intercalate_cons more]
            simp
          rw [split, lines_append_newline, induction more, List.flatMap_cons]
          rfl

theorem lines_scriptOf_cons {text : String} {others : List String} (more : others ≠ []) :
    lines (scriptOf (text :: others)).toList =
      statementLines text ++ [] :: lines (scriptOf others).toList := by
  have more' : others.map (· ++ ";") ≠ [] := by simpa using more
  have split : (scriptOf (text :: others)).toList =
      (text.toList ++ [';']) ++ '\n' :: '\n' :: (scriptOf others).toList := by
    rw [scriptOf, join, List.map_cons, toList_intercalate_cons more', String.toList_append]
    simp [scriptOf, join]
  rw [split, lines_append_newline, lines_newline]
  rfl

theorem lines_scriptOf_singleton (text : String) :
    lines (scriptOf [text]).toList = statementLines text := by
  rw [scriptOf, join, List.map_singleton, String.intercalate_singleton, String.toList_append]
  rfl

/-! ## Texts and scripts without their transactions -/

/-- A statement of calm lines and of lines that begin or end a transaction, and the statement of its
calm lines alone. -/
structure Unwrapped (wrapped plain : String) : Prop where
  expected : ∀ line ∈ statementLines wrapped, Calm line ∨ isTransaction line = true
  kept : keptLines (statementLines wrapped) = statementLines plain

theorem keptLines_append (first second : List (List Char)) :
    keptLines (first ++ second) = keptLines first ++ keptLines second :=
  List.filter_append ..

theorem keptLines_of_calm {lines : List (List Char)} (calm : ∀ line ∈ lines, Calm line) :
    keptLines lines = lines := by
  rw [keptLines, List.filter_eq_self]
  intro line member
  rw [(calm line member).isTransaction]
  rfl

theorem unwrapped_of_calm {text : String} (calm : CalmText text) : Unwrapped text text where
  expected line member := Or.inl (calm line member)
  kept := keptLines_of_calm calm

theorem unwrapped_script {wrapped plain : List String}
    (related : List.Forall₂ Unwrapped wrapped plain) :
    (∀ line ∈ lines (scriptOf wrapped).toList, Calm line ∨ isTransaction line = true) ∧
      keptLines (lines (scriptOf wrapped).toList) = lines (scriptOf plain).toList := by
  induction related with
  | nil =>
      constructor
      · intro line member
        rw [List.mem_singleton.mp member]
        exact Or.inl calm_nil
      · rfl
  | @cons text text' others others' first related induction =>
      cases related with
      | nil =>
          rw [lines_scriptOf_singleton, lines_scriptOf_singleton]
          exact ⟨first.expected, first.kept⟩
      | cons _ _ =>
          rw [lines_scriptOf_cons (List.cons_ne_nil _ _),
            lines_scriptOf_cons (List.cons_ne_nil _ _), keptLines_append, first.kept,
            keptLines_cons_of_calm calm_nil, induction.2]
          refine ⟨?_, rfl⟩
          intro line member
          rcases List.mem_append.mp member with member | member
          · exact first.expected line member
          · rcases List.mem_cons.mp member with rfl | member
            · exact Or.inl calm_nil
            · exact induction.1 line member

theorem exists_scriptOf_eq_concat {texts : List String} (nonempty : texts ≠ []) :
    ∃ front, (scriptOf texts).toList = front ++ [';'] := by
  induction texts with
  | nil => exact absurd rfl nonempty
  | cons text others induction =>
      cases others with
      | nil =>
          refine ⟨text.toList, ?_⟩
          rw [scriptOf, join, List.map_singleton, String.intercalate_singleton,
            String.toList_append]
          rfl
      | cons next others =>
          rcases induction (List.cons_ne_nil _ _) with ⟨front, equal⟩
          refine ⟨(text ++ ";").toList ++ "\n\n".toList ++ front, ?_⟩
          have more : (next :: others).map (· ++ ";") ≠ [] := by simp
          rw [scriptOf, join, List.map_cons, toList_intercalate_cons more,
            List.append_assoc _ front, ← equal]
          rfl

theorem trimEnd_scriptOf (texts : List String) :
    trimEnd (scriptOf texts).toList = (scriptOf texts).toList := by
  cases texts with
  | nil => rfl
  | cons text others =>
      rcases exists_scriptOf_eq_concat (List.cons_ne_nil text others) with ⟨front, equal⟩
      rw [equal]
      exact trimEnd_concat (by decide)

theorem calmText_deferral : CalmText "PRAGMA defer_foreign_keys = ON" := by
  intro line member
  have alone : statementLines "PRAGMA defer_foreign_keys = ON" =
      ["PRAGMA defer_foreign_keys = ON;".toList] :=
    (congrArg (fun text => lines (text ++ [';'])) String.toList_ofList).trans
      (congrArg List.singleton String.toList_ofList.symm)
  rw [alone, List.mem_singleton] at member
  rw [member]
  exact calm_deferral

theorem unwrapped_join {texts : List String} (calm : ∀ text ∈ texts, CalmText text) :
    Unwrapped (join ";\n" ("PRAGMA defer_foreign_keys = ON" :: "BEGIN" :: texts ++ ["COMMIT"]))
      (join ";\n" ("PRAGMA defer_foreign_keys = ON" :: texts)) := by
  have inner : ∀ line ∈ texts.flatMap statementLines, Calm line := by
    rw [List.forall_mem_flatMap]
    exact calm
  have wrapped : statementLines
      (join ";\n" ("PRAGMA defer_foreign_keys = ON" :: "BEGIN" :: texts ++ ["COMMIT"])) =
      statementLines "PRAGMA defer_foreign_keys = ON" ++ "BEGIN;".toList ::
        (texts.flatMap statementLines ++ ["COMMIT;".toList]) := by
    rw [statementLines, join, lines_intercalate (by simp), List.flatMap_append, List.flatMap_cons,
      List.flatMap_cons, List.append_assoc, List.append_assoc]
    rfl
  have plain : statementLines (join ";\n" ("PRAGMA defer_foreign_keys = ON" :: texts)) =
      statementLines "PRAGMA defer_foreign_keys = ON" ++ texts.flatMap statementLines := by
    rw [statementLines, join, lines_intercalate (List.cons_ne_nil _ _), List.flatMap_cons]
  constructor
  · intro line member
    rw [wrapped] at member
    rcases List.mem_append.mp member with member | member
    · exact Or.inl (calmText_deferral line member)
    · rcases List.mem_cons.mp member with rfl | member
      · exact Or.inr rfl
      · rcases List.mem_append.mp member with member | member
        · exact Or.inl (inner line member)
        · rw [List.mem_singleton.mp member]
          exact Or.inr rfl
  · have commit : keptLines ["COMMIT;".toList] = [] := rfl
    rw [wrapped, plain, keptLines_append, keptLines_of_calm calmText_deferral,
      keptLines_cons_of_transaction rfl, keptLines_append, keptLines_of_calm inner, commit,
      List.append_nil]

/-! ## Recreations -/

namespace TableChange

def innerSteps (change : TableChange) : List RecreationStep :=
  RecreationStep.createShadow ::
    (if change.copiedColumns.isEmpty then [] else [RecreationStep.copy change.copiedColumns])
    ++ [RecreationStep.dropOld, RecreationStep.renameShadow]
    ++ change.new.indexes.map RecreationStep.createIndex

theorem recreationSteps_eq (change : TableChange) (transactional : Bool) :
    change.recreationSteps transactional =
      RecreationStep.deferForeignKeys :: (if transactional then [RecreationStep.begin] else [])
        ++ change.innerSteps ++ if transactional then [RecreationStep.commit] else [] := by
  simp [recreationSteps, innerSteps]

end TableChange

namespace Target

variable {left right : Target}

theorem recreationStepText_twins (twins : Twins left right) (change : TableChange)
    (step : RecreationStep) :
    Correspond Eq (left.recreationStepText change step) (right.recreationStepText change step) := by
  cases step with
  | deferForeignKeys => exact .refl _
  | begin => exact .refl _
  | createShadow => exact twins.alwaysCreating.createTableText change.shadow
  | copy columns =>
      simp only [recreationStepText, twins.identifierList, twins.qualified]
      exact .refl _
  | dropOld =>
      simp only [recreationStepText, twins.qualified]
      exact .refl _
  | renameShadow =>
      simp only [recreationStepText, twins.qualified, twins.identifier]
      exact .refl _
  | createIndex index => exact (twins.createIndexText index).mapError
  | commit => exact .refl _

theorem allOneLine_shadow {change : TableChange} (strings : AllOneLine change.new.strings) :
    AllOneLine change.shadow.strings := by
  simp only [Table.strings, allOneLine_append, allOneLine_flatMap, QualifiedName.strings,
    Table.qualifiedName, allOneLine_cons] at strings
  rcases strings with ⟨⟨⟨⟨name, schema⟩, columns⟩, constraints⟩, _⟩
  simp only [Table.strings, allOneLine_append, allOneLine_flatMap, QualifiedName.strings,
    Table.qualifiedName, allOneLine_cons, TableChange.shadow]
  have shadowed : OneLine s!"_{change.new.name}_new" := by
    simp only [toString_string, oneLine_append, name, and_true]
    decide
  exact ⟨⟨⟨⟨shadowed, schema⟩, columns⟩, constraints⟩,
    fun _ member => absurd member List.not_mem_nil⟩

variable {target : Target} {change : TableChange}

theorem calm_copyText (strings : AllOneLine change.new.strings) {text : String}
    (written : target.recreationStepText change (.copy change.copiedColumns) = .ok text) :
    CalmText text := by
  rcases Table.allOneLine_parts strings with ⟨name, columns, _⟩
  have shadow := (Table.allOneLine_parts (allOneLine_shadow strings)).1
  have listed : OneLine (target.identifierList change.copiedColumns) := by
    apply oneLine_identifierList
    intro copied member
    rcases List.mem_map.mp member with ⟨column, among, rfl⟩
    exact columns column (List.mem_filter.mp among).1 _ List.mem_cons_self
  cases written
  apply calmText_of_oneLine
  · simp only [toString_string, oneLine_append, listed, oneLine_qualified name,
      oneLine_qualified shadow, and_true]
    decide
  · iterate 5 apply QuietText.append
    exact fun _ => rfl

theorem calm_recreationStepText (plain : target.Plain) (strings : AllOneLine change.new.strings)
    {step : RecreationStep} (inner : step ∈ change.innerSteps) {text : String}
    (written : target.recreationStepText change step = .ok text) : CalmText text := by
  rcases Table.allOneLine_parts strings with ⟨name, _, indexes⟩
  have shadow := allOneLine_shadow strings
  rcases List.mem_append.mp inner with inner | inner
  · rcases List.mem_append.mp inner with inner | inner
    · rcases List.mem_cons.mp inner with rfl | inner
      · exact @calm_createTableText target.alwaysCreating _ plain.family shadow _ written
      · split at inner
        · cases inner
        · rw [List.mem_singleton.mp inner] at written
          exact calm_copyText strings written
    · rcases List.mem_pair.mp inner with rfl | rfl
      · cases written
        apply calmText_of_oneLine
        · simp only [toString_string, oneLine_append, oneLine_qualified name, and_true]
          decide
        · exact QuietText.append (fun _ => rfl) _
      · cases written
        apply calmText_of_oneLine
        · have renamed : OneLine change.new.name := name _ List.mem_cons_self
          simp only [toString_string, oneLine_append, identifier, Sql.oneLine_identifier, renamed,
            oneLine_qualified (Table.allOneLine_parts shadow).1, and_true]
          decide
        · iterate 2 apply QuietText.append
          exact fun _ => rfl
  · rcases List.mem_map.mp inner with ⟨index, among, rfl⟩
    rcases bind_eq_ok_iff.mp (whole_eq_ok_iff.mp written) with ⟨_, _, written⟩
    cases written
    exact calm_indexText plain.family (indexes index among)

/-- A recreation is its inner steps after the deferral of foreign keys, between the beginning and
the end of a transaction where there are transactions. -/
theorem recreationText_eq (target : Target) (change : TableChange) :
    target.recreationText change =
      (change.innerSteps.mapM (target.recreationStepText change)).map fun texts =>
        join ";\n" ("PRAGMA defer_foreign_keys = ON"
          :: (if target.supports .transactionalDdl then ["BEGIN"] else []) ++ texts
          ++ if target.supports .transactionalDdl then ["COMMIT"] else []) := by
  unfold recreationText
  simp only [TableChange.recreationSteps_eq]
  cases target.supports .transactionalDdl with
  | true =>
      simp only [if_true, List.mapM_append, List.mapM_cons, List.mapM_nil, recreationStepText]
      cases change.innerSteps.mapM (target.recreationStepText change) <;> rfl
  | false =>
      simp only [Bool.false_eq_true, if_false, List.mapM_append, List.mapM_cons, List.mapM_nil,
        recreationStepText]
      cases change.innerSteps.mapM (target.recreationStepText change) <;> rfl

theorem unwrapped_recreationText (twins : Twins left right)
    (begins : left.supports .transactionalDdl = true)
    (without : right.supports .transactionalDdl = false)
    (strings : AllOneLine change.new.strings) :
    Correspond Unwrapped (left.recreationText change) (right.recreationText change) := by
  have inner : Correspond (List.Forall₂ Eq)
      (change.innerSteps.mapM (left.recreationStepText change))
      (change.innerSteps.mapM (right.recreationStepText change)) :=
    Correspond.mapM fun step _ => recreationStepText_twins twins change step
  have same : Correspond (fun first second => first = second ∧ ∀ text ∈ first, CalmText text)
      (change.innerSteps.mapM (left.recreationStepText change))
      (change.innerSteps.mapM (right.recreationStepText change)) := by
    apply inner.mono
    intro first second done _ equal
    refine ⟨List.forall₂_eq_eq_eq ▸ equal, ?_⟩
    intro text member
    rcases exists_item_of_mapM done member with ⟨step, among, written⟩
    exact calm_recreationStepText twins.left_plain strings among written
  rw [recreationText_eq, recreationText_eq, begins, without]
  apply same.map
  intro texts others calm
  rcases calm with ⟨rfl, calm⟩
  simpa using unwrapped_join calm

/-! ## Plans -/

theorem unwrapped_statement (twins : Twins left right)
    (begins : left.supports .transactionalDdl = true)
    (without : right.supports .transactionalDdl = false) {action : Action}
    (unbroken : action.Unbroken) :
    Correspond (fun first second => Unwrapped first.sql second.sql) (left.statement action)
      (right.statement action) := by
  have texts : Correspond Unwrapped (left.actionText action) (right.actionText action) := by
    by_cases recreates : ∃ change, action = .recreateTable change
    · rcases recreates with ⟨change, rfl⟩
      exact unwrapped_recreationText twins begins without unbroken
    · have kept : ∀ change, action ≠ .recreateTable change := not_exists.mp recreates
      apply (twins.actionText unbroken kept).mono
      intro first second written _ same
      rw [← same]
      exact unwrapped_of_calm (calm_actionText twins.left_plain unbroken kept written)
  exact texts.map fun _ _ related => related

theorem unwrapped_statements (twins : Twins left right)
    (begins : left.supports .transactionalDdl = true)
    (without : right.supports .transactionalDdl = false) {actions : List Action}
    (unbroken : ∀ action ∈ actions, action.Unbroken) :
    Correspond (List.Forall₂ fun first second => Unwrapped first.sql second.sql)
      (left.statements actions) (right.statements actions) :=
  Correspond.mapM fun action member =>
    unwrapped_statement twins begins without (unbroken action member)

theorem unwrapped_plan (twins : Twins left right)
    (begins : left.supports .transactionalDdl = true)
    (without : right.supports .transactionalDdl = false)
    (schemas : left.capabilities.defaultSchema = right.capabilities.defaultSchema)
    {old new : Schema} (oldStrings : AllOneLine old.strings) (newStrings : AllOneLine new.strings)
    (still : new.triggers = []) :
    (Succeeds (left.plan old new) ↔ Succeeds (right.plan old new)) ∧
      ∀ wrapped plain, left.plan old new = .ok wrapped → right.plan old new = .ok plain →
        List.Forall₂ Unwrapped (wrapped.statements.map (·.sql)) (plain.statements.map (·.sql)) := by
  have ordered : left.orderedActions old new = right.orderedActions old new := by
    rw [orderedActions, orderedActions, schemaChange, schemaChange, schemas, twins.options,
      twins.steps]
  have unbroken : ∀ action ∈ left.orderedActions old new, action.Unbroken := by
    intro action member
    rcases mem_orderedActions.mp member with ⟨step, among, rfl⟩
    exact SchemaChange.unbroken_steps twins.left_plain oldStrings newStrings still step among
  have written : Correspond (List.Forall₂ fun first second => Unwrapped first.sql second.sql)
      (left.statements (left.orderedActions old new))
      (right.statements (right.orderedActions old new)) := by
    rw [← ordered]
    exact unwrapped_statements twins begins without unbroken
  constructor
  · rw [succeeds_plan, succeeds_plan]
    exact written.succeeds_iff
  · intro wrapped plain leftDone rightDone
    have first := (plan_eq_ok_iff.mp leftDone).1
    have second := (plan_eq_ok_iff.mp rightDone).1
    rw [List.forall₂_map_left_iff, List.forall₂_map_right_iff]
    exact written.related first second

end Target

/-- Planning for SQLite and adapting the script for D1 is planning for D1: the one plan can be made
when the other can, and the adapted script, its trailing blanks apart, is the script of the other
plan. -/
theorem adapt_plan_sqlite (options : Options) {old new : Schema}
    (oldStrings : AllOneLine old.strings) (newStrings : AllOneLine new.strings)
    (still : new.triggers = []) :
    (Succeeds (Target.plan ⟨Capabilities.builtIn .sqlite, options⟩ old new) ↔
        Succeeds (Target.plan ⟨Capabilities.builtIn .d1, options⟩ old new)) ∧
      ∀ plan direct, Target.plan ⟨Capabilities.builtIn .sqlite, options⟩ old new = .ok plan →
        Target.plan ⟨Capabilities.builtIn .d1, options⟩ old new = .ok direct →
          String.ofList (trimEnd (adapt .d1 plan.script).text.toList) = direct.script := by
  rcases Target.unwrapped_plan (Target.twins_builtIn options) rfl rfl rfl oldStrings newStrings
    still with ⟨together, related⟩
  refine ⟨together, ?_⟩
  intro plan direct planned directly
  rcases unwrapped_script (related plan direct planned directly) with ⟨expected, kept⟩
  rw [Adaptation.text, String.toList_ofList, MigrationPlan.script, trimEnd_adapt_d1 expected, kept,
    ofLines_lines, trimEnd_scriptOf, String.ofList_toList, MigrationPlan.script]

namespace TransactionsExample

def journal (type : String) : Table where
  name := "journal"
  columns := [{ name := "begin", dataType := "integer" }, { name := "commit", dataType := type }]

def pages : Table := { name := "end", columns := [{ name := "id", dataType := "integer" }] }

def old : Schema := { tables := [journal "text"] }

def new : Schema := { tables := [journal "integer", pages] }

end TransactionsExample

open TransactionsExample in
/-- The type of a column changes, so that SQLite builds the table anew inside a transaction. -/
theorem adapt_plan_journal :
    AllOneLine old.strings ∧ AllOneLine new.strings ∧ new.triggers = [] ∧
      ∃ plan direct, Target.plan ⟨Capabilities.builtIn .sqlite, {}⟩ old new = .ok plan ∧
        Target.plan ⟨Capabilities.builtIn .d1, {}⟩ old new = .ok direct ∧
        plan.script ≠ direct.script ∧
        String.ofList (trimEnd (adapt .d1 plan.script).text.toList) = direct.script := by
  have oldStrings : AllOneLine old.strings := by decide +kernel
  have newStrings : AllOneLine new.strings := by decide +kernel
  have planned : ∃ plan direct, Target.plan ⟨Capabilities.builtIn .sqlite, {}⟩ old new = .ok plan ∧
      Target.plan ⟨Capabilities.builtIn .d1, {}⟩ old new = .ok direct ∧
      plan.script ≠ direct.script := ⟨_, _, rfl, rfl, by decide +kernel⟩
  rcases planned with ⟨plan, direct, planned, directly, other⟩
  exact ⟨oldStrings, newStrings, rfl, plan, direct, planned, directly, other,
    (adapt_plan_sqlite {} oldStrings newStrings rfl).2 plan direct planned directly⟩

end SchemaDdl
