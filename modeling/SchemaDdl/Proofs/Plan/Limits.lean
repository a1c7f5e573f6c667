import Mathlib.Algebra.GroupWithZero.Nat
import SchemaDdl.Capability.BuiltIn
import SchemaDdl.Plan.Limits
import SchemaDdl.Proofs.Plan.Phases
import SchemaDdl.Proofs.Text.Splitting

/-!
# Limits and single statements

An entry of a plan is one statement, except for a recreation, which is a script of several. The size
of an entry is that of the whole script, and statements are counted by the semicolons that end
lines, wherever these stand. What is reported is what a check of the single statements would report,
unless a script is too long though its statements are not, or there are such semicolons within
statements.
-/

namespace SchemaDdl

def countLineEnds : List Char → Nat
  | ';' :: '\n' :: text => countLineEnds text + 1
  | _ :: text => countLineEnds text
  | [] => 0

/-- The single statements that carry out an action: the steps of a recreation, or else one. -/
def Target.singleTexts (target : Target) : Action → Outcome (List String)
  | .recreateTable change =>
      (change.recreationSteps (target.supports .transactionalDdl)).mapM
        (target.recreationStepText change)
  | action => (target.actionText action).map fun text => [text]

/-- The issues of the size of an entry. -/
def Statement.sizeIssues (statement : Statement) (limits : BatchLimits) : List Issue :=
  MigrationPlan.sizeIssues { statements := [statement] } limits

/-- Whether limits are applied to single statements, which are given for each entry of a plan. -/
structure MigrationPlan.LimitsSingles (plan : MigrationPlan) (singles : List (List String))
    (limits : BatchLimits) : Prop where
  /-- An entry is reported exactly when one of its single statements is too long. -/
  sizes : List.Forall₂
    (fun statement texts => statement.sizeIssues limits ≠ [] ↔
      ∃ limit ∈ limits.maxStatementBytes, ∃ text ∈ texts, limit < Text.byteLength text)
    plan.statements singles
  /-- The plan is reported exactly when it has too many single statements. -/
  count : plan.countIssues limits ≠ [] ↔
    ∃ limit ∈ limits.maxStatements, limit < singles.flatten.length

/-- Whether no script and no semicolon within a statement exceeds a limit that the single statements
keep to. -/
structure BatchLimits.ExceededAlike (limits : BatchLimits) (singles : List (List String)) :
    Prop where
  /-- There are two bytes between the statements of a script. -/
  scripts : ∀ limit ∈ limits.maxStatementBytes, ∀ texts ∈ singles,
    (∀ text ∈ texts, Text.byteLength text ≤ limit) →
      (texts.map Text.byteLength).sum + 2 * (texts.length - 1) ≤ limit
  semicolons : ∀ limit ∈ limits.maxStatements, singles.flatten.length ≤ limit →
    singles.flatten.length + (singles.flatten.map (countLineEnds ·.toList)).sum ≤ limit

/-! ## Scripts -/

variable {texts : List String}

theorem countParts_eq (text : List Char) : countParts text = countLineEnds text + 1 := by
  fun_induction countLineEnds text with
  | case1 text induction => rw [countParts, induction]
  | case2 char text other induction => rw [countParts, induction]; exact other
  | case3 => rfl

theorem countParts_append (front back : List Char) :
    countParts (front ++ ';' :: '\n' :: back) = countParts front + countParts back := by
  fun_induction countParts front with
  | case1 text induction =>
      rw [List.cons_append, List.cons_append, countParts, induction]
      omega
  | case2 char text other induction =>
      rw [List.cons_append, countParts, induction]
      intro rest semicolon whole
      cases text with
      | nil => cases whole
      | cons next text => exact other text semicolon (by rw [(List.cons.inj whole).1])
  | case3 =>
      rw [List.nil_append, countParts]
      omega

theorem join_cons (text : String) {others : List String} (more : others ≠ []) :
    Text.join ";\n" (text :: others) = text ++ ";\n" ++ Text.join ";\n" others :=
  String.intercalate_cons_of_ne_nil more

theorem join_singleton (text : String) : Text.join ";\n" [text] = text :=
  String.intercalate_singleton

theorem countParts_join (nonempty : texts ≠ []) :
    countParts (Text.join ";\n" texts).toList =
      texts.length + (texts.map (countLineEnds ·.toList)).sum := by
  induction texts with
  | nil => exact absurd rfl nonempty
  | cons text texts induction =>
      rw [List.length_cons, List.map_cons, List.sum_cons]
      cases texts with
      | nil =>
          rw [join_singleton, countParts_eq]
          simp only [List.length_nil, List.map_nil, List.sum_nil]
          omega
      | cons next texts =>
          have whole : (Text.join ";\n" (text :: next :: texts)).toList =
              text.toList ++ ';' :: '\n' :: (Text.join ";\n" (next :: texts)).toList := by
            rw [join_cons text (List.cons_ne_nil _ _), String.toList_append, String.toList_append]
            simp
          rw [whole, countParts_append, induction (List.cons_ne_nil _ _), countParts_eq]
          omega

theorem byteLength_join (texts : List String) :
    Text.byteLength (Text.join ";\n" texts) =
      (texts.map Text.byteLength).sum + 2 * (texts.length - 1) := by
  induction texts with
  | nil => rfl
  | cons text texts induction =>
      rw [List.map_cons, List.sum_cons, List.length_cons]
      cases texts with
      | nil =>
          rw [join_singleton]
          rfl
      | cons next texts =>
          have gap : Text.byteLength ";\n" = 2 := by decide
          have parts : Text.byteLength (Text.join ";\n" (text :: next :: texts)) =
              Text.byteLength text + Text.byteLength ";\n"
                + Text.byteLength (Text.join ";\n" (next :: texts)) := by
            rw [join_cons text (List.cons_ne_nil _ _)]
            unfold Text.byteLength
            rw [String.utf8ByteSize_append, String.utf8ByteSize_append]
          rw [parts, gap, induction, List.length_cons]
          omega

theorem byteLength_le_join {text : String} (among : text ∈ texts) :
    Text.byteLength text ≤ Text.byteLength (Text.join ";\n" texts) := by
  induction texts with
  | nil => cases among
  | cons next texts induction =>
      rw [byteLength_join] at induction ⊢
      rw [List.map_cons, List.sum_cons, List.length_cons]
      rcases List.mem_cons.mp among with rfl | among
      · omega
      · have rest := induction among
        omega

/-! ## Entries -/

def Statement.Holds (statement : Statement) (texts : List String) : Prop :=
  texts ≠ [] ∧ statement.sql = Text.join ";\n" texts

theorem map_sql_of_holds {statements : List Statement} {singles : List (List String)}
    (held : List.Forall₂ Statement.Holds statements singles) :
    statements.map (·.sql) = singles.map (Text.join ";\n") := by
  induction held with
  | nil => rfl
  | cons first _ induction => rw [List.map_cons, List.map_cons, first.2, induction]

namespace Target

variable {target : Target}

theorem singleTexts_ok {action : Action} {sql : String}
    (written : target.actionText action = .ok sql) :
    ∃ texts, target.singleTexts action = .ok texts ∧ texts ≠ [] ∧
      sql = Text.join ";\n" texts := by
  cases action with
  | recreateTable change =>
      rcases bind_eq_ok_iff.mp written with ⟨texts, done, equal⟩
      cases equal
      refine ⟨texts, done, ?_, rfl⟩
      rintro rfl
      have none := mapM_eq_ok_iff.mp done
      cases none
  | _ =>
      have single := congrArg (Except.map fun text => [text]) written
      exact ⟨[sql], single, List.cons_ne_nil _ _, (join_singleton sql).symm⟩

theorem exists_singles {actions : List Action} {written : List Statement}
    (done : target.statements actions = .ok written) :
    ∃ singles, actions.mapM target.singleTexts = .ok singles ∧
      List.Forall₂ Statement.Holds written singles := by
  have each := statements_eq_ok_iff.mp done
  induction each with
  | nil => exact ⟨[], rfl, .nil⟩
  | cons headDone others induction =>
      rcases statement_eq_ok_iff.mp headDone with ⟨sql, text, rfl⟩
      rcases singleTexts_ok text with ⟨texts, first, holds⟩
      rcases induction (statements_eq_ok_iff.mpr others) with ⟨singles, rest, held⟩
      refine ⟨texts :: singles, ?_, .cons holds held⟩
      rw [List.mapM_cons, first, rest]
      rfl

end Target

/-! ## Sizes -/

variable {limits : BatchLimits} {statement : Statement} {plan : MigrationPlan}
  {singles : List (List String)}

theorem sizeIssues_eq_flatMap (plan : MigrationPlan) (limits : BatchLimits) :
    plan.sizeIssues limits = plan.statements.flatMap (·.sizeIssues limits) := by
  unfold Statement.sizeIssues MigrationPlan.sizeIssues
  cases limits.maxStatementBytes with
  | none => simp
  | some limit =>
      dsimp only
      induction plan.statements with
      | nil => rfl
      | cons statement statements induction =>
          rw [List.flatMap_cons, ← induction, List.filter_cons, List.filter_cons]
          split <;> rfl

theorem sizeIssues_ne_nil_iff :
    statement.sizeIssues limits ≠ [] ↔
      ∃ limit ∈ limits.maxStatementBytes, limit < Text.byteLength statement.sql := by
  unfold Statement.sizeIssues MigrationPlan.sizeIssues
  cases limits.maxStatementBytes with
  | none => simp
  | some limit => simp [List.filter_cons]

theorem sizeIssues_iff_of_holds (held : statement.Holds texts) :
    (statement.sizeIssues limits ≠ [] ↔
      ∃ limit ∈ limits.maxStatementBytes, ∃ text ∈ texts, limit < Text.byteLength text) ↔
    ∀ limit ∈ limits.maxStatementBytes, (∀ text ∈ texts, Text.byteLength text ≤ limit) →
      (texts.map Text.byteLength).sum + 2 * (texts.length - 1) ≤ limit := by
  rw [sizeIssues_ne_nil_iff, held.2, ← byteLength_join]
  cases limits.maxStatementBytes with
  | none => simp
  | some limit =>
      have parts : (∃ text ∈ texts, limit < Text.byteLength text) →
          limit < Text.byteLength (Text.join ";\n" texts) := by
        rintro ⟨text, among, long⟩
        exact Nat.lt_of_lt_of_le long (byteLength_le_join among)
      have small : (∀ text ∈ texts, Text.byteLength text ≤ limit) ↔
          ¬∃ text ∈ texts, limit < Text.byteLength text := by
        simp only [not_exists, not_and, Nat.not_lt]
      simp only [Option.mem_some, exists_eq_left', forall_eq']
      rw [small, ← Nat.not_lt, not_imp_not]
      exact ⟨fun same => same.mp, fun only => ⟨only, parts⟩⟩

theorem forall₂_sizes_iff {statements : List Statement}
    (held : List.Forall₂ Statement.Holds statements singles) :
    List.Forall₂ (fun statement texts => statement.sizeIssues limits ≠ [] ↔
        ∃ limit ∈ limits.maxStatementBytes, ∃ text ∈ texts, limit < Text.byteLength text)
      statements singles ↔
    ∀ limit ∈ limits.maxStatementBytes, ∀ texts ∈ singles,
      (∀ text ∈ texts, Text.byteLength text ≤ limit) →
        (texts.map Text.byteLength).sum + 2 * (texts.length - 1) ≤ limit := by
  induction held with
  | nil => simp
  | cons first _ induction =>
      rw [List.forall₂_cons, sizeIssues_iff_of_holds first, induction]
      simp only [List.forall_mem_cons, forall_and]

/-! ## Counts -/

theorem foldl_countParts {statements : List Statement}
    (held : List.Forall₂ Statement.Holds statements singles) (count : Nat) :
    statements.foldl (fun count statement => count + countParts statement.sql.toList) count =
      count + (singles.flatten.length
        + (singles.flatten.map (countLineEnds ·.toList)).sum) := by
  induction held generalizing count with
  | nil => rfl
  | cons first _ induction =>
      rw [List.foldl_cons, induction, first.2, countParts_join first.1, List.flatten_cons,
        List.length_append, List.map_append, List.sum_append]
      omega

theorem statementCount_eq (held : List.Forall₂ Statement.Holds plan.statements singles) :
    plan.statementCount =
      singles.flatten.length + (singles.flatten.map (countLineEnds ·.toList)).sum := by
  rw [MigrationPlan.statementCount, foldl_countParts held, Nat.zero_add]

theorem countIssues_ne_nil_iff :
    plan.countIssues limits ≠ [] ↔ ∃ limit ∈ limits.maxStatements, limit < plan.statementCount := by
  unfold MigrationPlan.countIssues
  cases limits.maxStatements with
  | none => simp
  | some limit => simp [issueWhen]

theorem count_iff (held : List.Forall₂ Statement.Holds plan.statements singles) :
    (plan.countIssues limits ≠ [] ↔
      ∃ limit ∈ limits.maxStatements, limit < singles.flatten.length) ↔
    ∀ limit ∈ limits.maxStatements, singles.flatten.length ≤ limit →
      singles.flatten.length + (singles.flatten.map (countLineEnds ·.toList)).sum ≤ limit := by
  rw [countIssues_ne_nil_iff, ← statementCount_eq held]
  have few : singles.flatten.length ≤ plan.statementCount := by
    rw [statementCount_eq held]
    exact Nat.le_add_right _ _
  cases limits.maxStatements with
  | none => simp
  | some limit =>
      simp only [Option.mem_some, exists_eq_left', forall_eq', ← Nat.not_lt, not_imp_not]
      exact ⟨fun same => same.mp, fun only => ⟨only, fun many => Nat.lt_of_lt_of_le many few⟩⟩

/-- The limits are applied to single statements exactly when scripts and semicolons within
statements exceed none of them. -/
theorem Target.plan_limitsSingles_iff {target : Target} {old new : Schema}
    (planned : target.plan old new = .ok plan) (limits : BatchLimits) :
    ∃ singles, (target.orderedActions old new).mapM target.singleTexts = .ok singles ∧
      plan.statements.map (·.sql) = singles.map (Text.join ";\n") ∧
      plan.limitIssues limits =
        plan.statements.flatMap (·.sizeIssues limits) ++ plan.countIssues limits ∧
      (plan.LimitsSingles singles limits ↔ limits.ExceededAlike singles) := by
  rcases exists_singles (plan_eq_ok_iff.mp planned).1 with ⟨singles, done, held⟩
  refine ⟨singles, done, ?_, ?_, ?_⟩
  · exact map_sql_of_holds held
  · rw [MigrationPlan.limitIssues, sizeIssues_eq_flatMap]
  · constructor
    · intro applied
      exact ⟨(forall₂_sizes_iff held).mp applied.sizes, (count_iff held).mp applied.count⟩
    · intro alike
      exact ⟨(forall₂_sizes_iff held).mpr alike.scripts, (count_iff held).mpr alike.semicolons⟩

/-! ## An example -/

namespace LimitsExample

def pages (type : String) : Table where
  name := "pages"
  columns := [{ name := "views", dataType := type }]

def count : Trigger where
  name := "count"
  table := .plain "pages"
  timing := .after
  events := [.insert]
  body := ["UPDATE pages SET views = 0", "DELETE FROM pages"]

def old : Schema :=
  { tables := [pages "integer"] }

def new : Schema :=
  { tables := [pages "bigint"], triggers := [count] }

def target : Target :=
  ⟨Capabilities.sqlite, {}⟩

def script : List String := [
  "PRAGMA defer_foreign_keys = ON", "BEGIN", "CREATE TABLE _pages_new (\n    views bigint\n)",
  "INSERT INTO _pages_new (views) SELECT views FROM pages", "DROP TABLE pages",
  "ALTER TABLE _pages_new RENAME TO pages", "COMMIT"]

def trigger : String :=
  "CREATE TRIGGER count AFTER INSERT ON pages FOR EACH ROW\n"
    ++ "BEGIN\n    UPDATE pages SET views = 0;\n    DELETE FROM pages;\nEND"

def entries : List (List String) :=
  [script, [trigger]]

theorem mapM_singleTexts :
    (target.orderedActions old new).mapM target.singleTexts = .ok entries := by
  decide +kernel

theorem countLineEnds_ofList {chars : List Char} {count : Nat}
    (counted : countLineEnds chars = count) :
    countLineEnds (String.ofList chars).toList = count := by
  rw [String.toList_ofList, counted]

theorem sum_countLineEnds : (entries.flatten.map (countLineEnds ·.toList)).sum = 2 := by
  have spelled : trigger.toList = _ := Text.toList_ofList_append
  have counts : entries.flatten.map (countLineEnds ·.toList) = [0, 0, 0, 0, 0, 0, 0, 2] := by
    iterate 7 refine congrArg₂ List.cons (countLineEnds_ofList (by decide)) ?_
    exact congrArg₂ List.cons ((congrArg countLineEnds spelled).trans (by decide)) rfl
  rw [counts]
  rfl

theorem exists_plan : ∃ plan, target.plan old new = .ok plan ∧
    List.Forall₂ Statement.Holds plan.statements entries := by
  have succeeds : Succeeds (target.plan old new) := by
    decide +kernel
  rcases succeeds with ⟨plan, planned⟩
  rcases Target.exists_singles (Target.plan_eq_ok_iff.mp planned).1 with ⟨others, done, held⟩
  obtain rfl : entries = others := Except.ok.inj (mapM_singleTexts.symm.trans done)
  exact ⟨plan, planned, held⟩

def wide : BatchLimits :=
  ⟨some 205, some 10⟩

def tight : BatchLimits :=
  ⟨some 120, some 8⟩

end LimitsExample

open LimitsExample in
/-- Where scripts and line ends keep to the limits, the single statements are what counts. -/
theorem plan_limitsSingles_pages :
    ∃ plan, target.plan old new = .ok plan ∧ plan.LimitsSingles entries wide := by
  rcases exists_plan with ⟨plan, planned, _⟩
  rcases Target.plan_limitsSingles_iff planned wide with ⟨others, done, _, _, exact⟩
  obtain rfl : entries = others := Except.ok.inj (mapM_singleTexts.symm.trans done)
  refine ⟨plan, planned, exact.mpr ⟨?_, ?_⟩⟩
  · have short : ∀ texts ∈ entries,
        (texts.map Text.byteLength).sum + 2 * (texts.length - 1) ≤ 205 := by
      decide +kernel
    intro limit limited texts among _
    cases limited
    exact short texts among
  · intro limit limited _
    cases limited
    rw [sum_countLineEnds]
    decide

open LimitsExample in
/-- A script is too long though its statements are not, and the statements in the body of a trigger
are counted. -/
theorem plan_limits_exceeded_pages :
    ∃ plan, target.plan old new = .ok plan ∧
      (target.orderedActions old new).mapM target.singleTexts = .ok entries ∧
      (∀ text ∈ entries.flatten, Text.byteLength text ≤ 120) ∧ entries.flatten.length = 8 ∧
      (∃ statement ∈ plan.statements, statement.sizeIssues tight ≠ []) ∧
      plan.countIssues tight ≠ [] ∧ ¬plan.LimitsSingles entries tight := by
  rcases exists_plan with ⟨plan, planned, held⟩
  have counted : plan.countIssues tight ≠ [] := by
    refine countIssues_ne_nil_iff.mpr ⟨8, rfl, ?_⟩
    rw [statementCount_eq held, sum_countLineEnds]
    decide
  rcases List.forall₂_cons_right_iff.mp held with ⟨statement, statements, first, _, whole⟩
  have long : statement.sizeIssues tight ≠ [] := by
    refine sizeIssues_ne_nil_iff.mpr ⟨120, rfl, ?_⟩
    rw [first.2, byteLength_join]
    decide +kernel
  refine ⟨plan, planned, mapM_singleTexts, by decide +kernel, rfl,
    ⟨statement, by rw [whole]; exact List.mem_cons_self, long⟩, counted, fun applied => ?_⟩
  rcases applied.count.mp counted with ⟨limit, limited, many⟩
  cases limited
  exact Nat.lt_irrefl 8 many

end SchemaDdl
