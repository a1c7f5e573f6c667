import SchemaDdl.Proofs.Plan.Rebuilding
import SchemaDdl.Proofs.Plan.Triggers
import SchemaDdl.Proofs.Sql.Reading
import SchemaDdl.Validation.Tables

/-!
# Names of shadow tables

The name of a shadow table is made from the name of its table and from nothing else. It means the
shadow alone unless a version of the schema has a table of just that name; and the platform may
reserve it, though it leaves the name of the table to the schema.
-/

namespace SchemaDdl

/-! ## Reserved names -/

namespace ReservedObjects

variable {reserved : ReservedObjects} {defaultSchema : String} {name : QualifiedName}

theorem reservation?_eq_none_iff :
    reserved.reservation? defaultSchema name = none ↔
      reserved.reservedSchema? name = none ∧
      (∀ table ∈ reserved.tables, (QualifiedName.ofText table).agrees defaultSchema name = false) ∧
      ∀ beginning ∈ reserved.tableBeginnings,
        Text.startsWith (Text.lowered name.name) beginning = false := by
  unfold reservation?
  cases reserved.reservedSchema? name with
  | some schema => simp
  | none =>
    simp only [true_and]
    split
    · rename_i taken
      obtain ⟨table, member, agrees⟩ := List.any_eq_true.mp taken
      refine ⟨nofun, fun holds => ?_⟩
      rw [holds.1 table member] at agrees
      cases agrees
    · rename_i free
      have apart : ∀ table ∈ reserved.tables,
          (QualifiedName.ofText table).agrees defaultSchema name = false := fun table member =>
        Bool.eq_false_iff.mpr fun agrees => free (List.any_eq_true.mpr ⟨table, member, agrees⟩)
      rw [Option.map_eq_none_iff, List.find?_eq_none]
      refine ⟨fun none => ⟨apart, fun beginning member => ?_⟩, fun holds beginning member => ?_⟩
      · exact Bool.eq_false_iff.mpr (none beginning member)
      · exact Bool.eq_false_iff.mp (holds.2 beginning member)

end ReservedObjects

namespace Text

theorem startsWith_iff {text beginning : String} :
    startsWith text beginning = true ↔ ∃ rest, text.toList = beginning.toList ++ rest := by
  rw [startsWith, List.isPrefixOf_iff_prefix]
  exact exists_congr fun _ => eq_comm

theorem lowered_append (first second : String) :
    lowered (first ++ second) = lowered first ++ lowered second := by
  simp [lowered, lower]

theorem toList_underscore (text : String) : ("_" ++ text).toList = '_' :: text.toList :=
  String.toList_append

theorem underscore_ne {text other : String} (begins : startsWith other "_" = false) :
    "_" ++ text ≠ other := by
  intro same
  have underscored : startsWith other "_" = true := by
    rw [← same]
    exact startsWith_iff.mpr ⟨text.toList, toList_underscore text⟩
  rw [begins] at underscored
  cases underscored

theorem startsWith_underscore_iff {text beginning : String} :
    startsWith ("_" ++ text) beginning = true ↔
      beginning = "" ∨ ∃ rest, beginning = "_" ++ rest ∧ startsWith text rest = true := by
  rw [startsWith_iff, toList_underscore]
  constructor
  · intro holds
    obtain ⟨rest, equal⟩ := holds
    cases front : beginning.toList with
    | nil => exact .inl (String.toList_eq_nil_iff.mp front)
    | cons first others =>
      rw [front, List.cons_append] at equal
      obtain ⟨rfl, tail⟩ := List.cons.inj equal
      refine .inr ⟨String.ofList others, ?_, startsWith_iff.mpr ⟨rest, ?_⟩⟩
      · rw [← String.toList_inj, front, toList_underscore, String.toList_ofList]
      · rw [String.toList_ofList]
        exact tail
  · intro holds
    rcases holds with rfl | ⟨others, rfl, begins⟩
    · exact ⟨_, rfl⟩
    · obtain ⟨rest, equal⟩ := startsWith_iff.mp begins
      exact ⟨rest, by rw [toList_underscore, equal, List.cons_append]⟩

theorem startsWith_cf_iff {text : String} :
    startsWith (text ++ "_new") "cf_" = true ↔ text = "cf" ∨ startsWith text "cf_" = true := by
  have letters : (text ++ "_new").toList = text.toList ++ ['_', 'n', 'e', 'w'] :=
    String.toList_append
  have same : text = "cf" ↔ text.toList = ['c', 'f'] := String.toList_inj.symm
  rw [startsWith, startsWith, letters, same]
  change ['c', 'f', '_'].isPrefixOf _ = true ↔ _ ∨ ['c', 'f', '_'].isPrefixOf _ = true
  rcases text.toList with _ | ⟨first, _ | ⟨second, _ | ⟨third, others⟩⟩⟩
  · simp [List.isPrefixOf]
  · simp [List.isPrefixOf]
  · simpa [List.isPrefixOf] using and_congr eq_comm eq_comm
  · simp [List.isPrefixOf]

end Text

/-! ## What a script creates -/

/-- What follows the words that create a table, be it the first step of a transaction or not. -/
def Text.afterCreation? (text : List Char) : Option (List Char) :=
  let text := (after? "BEGIN;\n".toList text).getD text
  (after? "CREATE TABLE ".toList text).or (after? "CREATE TEMPORARY TABLE ".toList text)

/-- The name of the table that a script of a recreation creates. -/
def Statement.shadow? (statement : Statement) : Option QualifiedName := do
  let rest ← Text.after? "PRAGMA defer_foreign_keys = ON;\n".toList statement.sql.toList
  let rest ← Text.afterCreation? rest
  let (shadow, _) ← Sql.readQualified? .sqlite rest
  return shadow

theorem Text.afterCreation?_append {verb : String}
    (verbs : verb = "CREATE TABLE " ∨ verb = "CREATE TEMPORARY TABLE ") (transactional : Bool)
    (rest : List Char) :
    afterCreation? ((if transactional then "BEGIN;\n".toList else []) ++ (verb.toList ++ rest)) =
      some rest := by
  have start : (after? "BEGIN;\n".toList
      ((if transactional then "BEGIN;\n".toList else []) ++ (verb.toList ++ rest))).getD
        ((if transactional then "BEGIN;\n".toList else []) ++ (verb.toList ++ rest)) =
      verb.toList ++ rest := by
    cases transactional with
    | true =>
      rw [if_pos rfl, after?_append]
      rfl
    | false => rcases verbs with rfl | rfl <;> rfl
  unfold afterCreation?
  rw [start]
  rcases verbs with rfl | rfl <;>
  · dsimp only
    rw [after?_append]
    rfl

namespace Target

variable {target : Target} {change : TableChange} {statement : Statement}

theorem exists_scriptTexts_eq (target : Target) (change : TableChange) (creation : String)
    (indexes : List String) :
    ∃ others, others ≠ [] ∧ target.scriptTexts change creation indexes =
      "PRAGMA defer_foreign_keys = ON"
        :: (if target.supports .transactionalDdl then ["BEGIN"] else []) ++ creation :: others := by
  simp only [scriptTexts, List.flatten_cons]
  refine ⟨_, ?_, rfl⟩
  simp

theorem exists_toList_join_scriptTexts (target : Target) (change : TableChange)
    (creation : String) (indexes : List String) :
    ∃ rest, (Text.join ";\n" (target.scriptTexts change creation indexes)).toList =
      "PRAGMA defer_foreign_keys = ON;\n".toList
        ++ ((if target.supports .transactionalDdl then "BEGIN;\n".toList else [])
        ++ (creation.toList ++ rest)) := by
  obtain ⟨others, more, texts⟩ := exists_scriptTexts_eq target change creation indexes
  rw [texts]
  have deferral : "PRAGMA defer_foreign_keys = ON;\n".toList =
      "PRAGMA defer_foreign_keys = ON".toList ++ ";\n".toList := rfl
  have beginning : "BEGIN;\n".toList = "BEGIN".toList ++ ";\n".toList := rfl
  refine ⟨";\n".toList ++ (";\n".intercalate others).toList, ?_⟩
  unfold Text.join
  cases target.supports .transactionalDdl with
  | true =>
    simp only [if_true, List.cons_append, List.nil_append]
    rw [toList_intercalate_cons (by simp), toList_intercalate_cons (by simp),
      toList_intercalate_cons more, deferral, beginning]
    simp only [List.append_assoc]
  | false =>
    simp only [Bool.false_eq_true, if_false, List.cons_append, List.nil_append]
    rw [toList_intercalate_cons (by simp), toList_intercalate_cons more, deferral]
    simp only [List.append_assoc]

theorem shadow?_of_statement (anew : change.requiresRecreation target.capabilities = true)
    (written : target.statement (.recreateTable change) = .ok statement) :
    statement.shadow? = some change.shadowName := by
  have sqlite := TableChange.family_of_requiresRecreation anew
  obtain ⟨script, scriptOk, rfl⟩ := statement_eq_ok_iff.mp written
  obtain ⟨verb, body, indexes, verbs, _, _, whole⟩ := exists_script sqlite scriptOk
  obtain ⟨rest, letters⟩ := exists_toList_join_scriptTexts target change
    (verb ++ target.qualified change.shadowName ++ " (\n" ++ body) indexes
  have named : Sql.readQualified? .sqlite ((target.qualified change.shadowName).toList
      ++ (" (\n".toList ++ (body.toList ++ rest))) =
        some (change.shadowName, " (\n".toList ++ (body.toList ++ rest)) := by
    rw [qualified, show target.family = .sqlite from sqlite]
    exact Sql.readQualified?_append change.shadowName Sql.endsName_blank
  unfold Statement.shadow?
  simp only [statementWith, whole, letters, Text.after?_append, String.toList_append,
    List.append_assoc, Option.bind_eq_bind, Option.bind_some, Text.afterCreation?_append verbs,
    named]
  rfl

end Target

/-! ## Names of two versions -/

theorem TableChange.name_shadowName (change : TableChange) :
    change.shadowName.name = "_" ++ (change.new.name ++ "_new") := by
  simp only [shadowName, Text.toString_string, String.append_assoc]

namespace SchemaChange

variable {change : SchemaChange} {capabilities : Capabilities} {pair : TableChange}

/-- Whether no table of either version has a name. -/
def LeavesFree (change : SchemaChange) (name : QualifiedName) : Prop :=
  ∀ table ∈ change.old.tables ++ change.new.tables,
    table.qualifiedName.agrees change.defaultSchema name = false

/-- Whether no table is reserved. -/
def Permitted (change : SchemaChange) (capabilities : Capabilities) : Prop :=
  ∀ table ∈ change.old.tables ++ change.new.tables,
    capabilities.reservation? table.qualifiedName = none

/-- Whether no table beside a given one has the name in which that of the given one stands between
an underscore and an ending. -/
def ShadowApart (change : SchemaChange) (pair : TableChange) : Prop :=
  ∀ table ∈ change.old.tables ++ change.new.tables, table.name = s!"_{pair.new.name}_new" →
    table.schema.getD change.defaultSchema ≠ pair.new.schema.getD change.defaultSchema

/-- Whether a table leaves room for its shadow: no other table has the name of the shadow, and
neither this name nor a beginning of it is reserved. -/
structure LeavesRoom (change : SchemaChange) (capabilities : Capabilities) (pair : TableChange) :
    Prop where
  apart : change.ShadowApart pair
  whole : ∀ table ∈ capabilities.reserved.tables,
    (QualifiedName.ofText table).agrees change.defaultSchema pair.shadowName = false
  beginning : ∀ rest, "_" ++ rest ∈ capabilities.reserved.tableBeginnings →
    Text.startsWith (Text.lowered pair.new.name ++ "_new") rest = false

theorem leavesFree_shadowName_iff :
    change.LeavesFree pair.shadowName ↔ change.ShadowApart pair := by
  refine forall_congr' fun table => imp_congr_right fun _ => ?_
  simp [QualifiedName.agrees, Table.qualifiedName, TableChange.shadowName]

/-- A platform that leaves the name of a table to the schema reserves that of its shadow for a
beginning with an underscore, or as a whole. -/
theorem reservation?_shadowName_eq_none_iff
    (permitted : capabilities.reservation? pair.new.qualifiedName = none) :
    capabilities.reservation? pair.shadowName = none ↔
      (∀ table ∈ capabilities.reserved.tables,
        (QualifiedName.ofText table).agrees capabilities.defaultSchema pair.shadowName = false) ∧
      ∀ rest, "_" ++ rest ∈ capabilities.reserved.tableBeginnings →
        Text.startsWith (Text.lowered pair.new.name ++ "_new") rest = false := by
  obtain ⟨schema, _, beginnings⟩ := ReservedObjects.reservation?_eq_none_iff.mp permitted
  have lowered : Text.lowered pair.shadowName.name =
      "_" ++ (Text.lowered pair.new.name ++ "_new") := by
    rw [TableChange.name_shadowName, Text.lowered_append, Text.lowered_append]
    rfl
  unfold Capabilities.reservation?
  rw [ReservedObjects.reservation?_eq_none_iff, lowered]
  constructor
  · intro holds
    refine ⟨holds.2.1, fun rest member => Bool.eq_false_iff.mpr fun begins => ?_⟩
    have reserves := Text.startsWith_underscore_iff.mpr (.inr ⟨rest, rfl, begins⟩)
    rw [holds.2.2 _ member] at reserves
    cases reserves
  · intro holds
    refine ⟨schema, holds.1, fun beginning member => Bool.eq_false_iff.mpr fun begins => ?_⟩
    rcases Text.startsWith_underscore_iff.mp begins with rfl | ⟨rest, rfl, tail⟩
    · -- A platform that reserves all names would reserve that of the table.
      have reserves := beginnings "" member
      cases reserves
    · rw [holds.2 rest member] at tail
      cases tail

theorem leavesRoom_iff (default : capabilities.defaultSchema = change.defaultSchema)
    (permitted : change.Permitted capabilities) (kept : pair ∈ change.keptTables) :
    change.LeavesFree pair.shadowName ∧ capabilities.reservation? pair.shadowName = none ↔
      change.LeavesRoom capabilities pair := by
  have own : capabilities.reservation? pair.new.qualifiedName = none :=
    permitted pair.new (List.mem_append_right _ (mem_keptTables.mp kept).1)
  rw [leavesFree_shadowName_iff, reservation?_shadowName_eq_none_iff own, default]
  exact ⟨fun holds => ⟨holds.1, holds.2.1, holds.2.2⟩,
    fun room => ⟨room.apart, room.whole, room.beginning⟩⟩

theorem leavesRoom_d1_iff :
    change.LeavesRoom Capabilities.d1 pair ↔
      change.ShadowApart pair ∧ Text.lowered pair.new.name ≠ "cf" ∧
        Text.startsWith (Text.lowered pair.new.name) "cf_" = false := by
  have whole : ∀ table ∈ Capabilities.d1.reserved.tables,
      (QualifiedName.ofText table).agrees change.defaultSchema pair.shadowName = false := by
    intro table member
    rw [List.mem_singleton.mp member]
    refine Bool.eq_false_iff.mpr fun agrees => ?_
    simp only [QualifiedName.agrees, Bool.and_eq_true, beq_iff_eq, TableChange.name_shadowName]
      at agrees
    exact Text.underscore_ne (by decide +kernel) agrees.1.symm
  have beginnings (rest : String) :
      "_" ++ rest ∈ Capabilities.d1.reserved.tableBeginnings ↔ rest = "cf_" := by
    rw [show Capabilities.d1.reserved.tableBeginnings = ["sqlite_", "_" ++ "cf_"] from rfl,
      List.mem_pair, or_iff_right (Text.underscore_ne (by decide +kernel)), String.append_right_inj]
  have begins : (∀ rest, "_" ++ rest ∈ Capabilities.d1.reserved.tableBeginnings →
      Text.startsWith (Text.lowered pair.new.name ++ "_new") rest = false) ↔
        Text.lowered pair.new.name ≠ "cf" ∧
          Text.startsWith (Text.lowered pair.new.name) "cf_" = false := by
    simp only [beginnings, forall_eq, ← Bool.not_eq_true, Text.startsWith_cf_iff, not_or, ne_eq]
  rw [← begins]
  exact ⟨fun room => ⟨room.apart, room.beginning⟩, fun holds => ⟨holds.1, whole, holds.2⟩⟩

end SchemaChange

theorem Action.exists_eq_recreateTable {action : Action}
    (rebuilds : action.operation = .recreateTable) : ∃ change, action = .recreateTable change := by
  cases action with
  | recreateTable change => exact ⟨change, rfl⟩
  | _ => cases rebuilds

namespace Target

variable {target : Target} {old new : Schema} {plan : MigrationPlan}

theorem exists_shadow_of_plan (planned : target.plan old new = .ok plan) {pair : TableChange}
    (kept : pair ∈ (target.schemaChange old new).keptTables)
    (anew : pair.requiresRecreation target.capabilities = true) :
    ∃ statement ∈ plan.statements, statement.operation = .recreateTable ∧
      statement.shadow? = some pair.shadowName := by
  have member : .recreateTable pair ∈ target.orderedActions old new :=
    SchemaChange.recreateTable_mem_orderedActions.mpr ⟨kept, anew⟩
  obtain ⟨statement, found, statementOk⟩ :=
    exists_value_of_mapM (plan_eq_ok_iff.mp planned).1 member
  exact ⟨statement, found, operation_of_statement statementOk,
    shadow?_of_statement anew statementOk⟩

/-- The shadow tables of a plan have names of their own, which the platform does not reserve, if and
only if every table that is built anew leaves room for its shadow. -/
theorem plan_shadowsStandAlone_iff (planned : target.plan old new = .ok plan)
    (permitted : (target.schemaChange old new).Permitted target.capabilities) :
    (∀ statement ∈ plan.statements, statement.operation = .recreateTable →
      ∃ shadow, statement.shadow? = some shadow ∧
        (target.schemaChange old new).LeavesFree shadow ∧
        target.capabilities.reservation? shadow = none) ↔
    ∀ pair ∈ (target.schemaChange old new).keptTables,
      pair.requiresRecreation target.capabilities = true →
        (target.schemaChange old new).LeavesRoom target.capabilities pair := by
  have room : ∀ pair ∈ (target.schemaChange old new).keptTables,
      ((target.schemaChange old new).LeavesFree pair.shadowName ∧
        target.capabilities.reservation? pair.shadowName = none ↔
      (target.schemaChange old new).LeavesRoom target.capabilities pair) := by
    intro pair kept
    exact SchemaChange.leavesRoom_iff rfl permitted kept
  constructor
  · intro alone pair kept anew
    obtain ⟨statement, found, rebuilds, name⟩ := exists_shadow_of_plan planned kept anew
    obtain ⟨shadow, read, free, unreserved⟩ := alone statement found rebuilds
    cases name.symm.trans read
    exact (room pair kept).mp ⟨free, unreserved⟩
  · intro leaves statement found rebuilds
    obtain ⟨action, member, statementOk⟩ :=
      exists_item_of_mapM (plan_eq_ok_iff.mp planned).1 found
    obtain ⟨pair, rfl⟩ := Action.exists_eq_recreateTable
      ((operation_of_statement statementOk).symm.trans rebuilds)
    obtain ⟨kept, anew⟩ := SchemaChange.recreateTable_mem_orderedActions.mp member
    exact ⟨pair.shadowName, shadow?_of_statement anew statementOk,
      (room pair kept).mpr (leaves pair kept anew)⟩

end Target

/-! ## An example -/

namespace ShadowExample

def target : Target := ⟨Capabilities.d1, {}⟩

def table (type name : String) : Table where
  name := name
  columns := [{ name := "id", dataType := type }]

/-- A schema with a table that stays as it is and with others of a type. -/
def schema (type : String) (names : List String) : Schema :=
  { tables := table "text" "_pages_new" :: names.map (table type) }

def retype (name : String) : TableChange :=
  ⟨table "integer" name, table "text" name⟩

def retyped (names : List String) : SchemaChange :=
  target.schemaChange (schema "integer" names) (schema "text" names)

end ShadowExample

open ShadowExample in
theorem plan_shadowsStandAlone_posts :
    ∃ plan, target.plan (schema "integer" ["posts"]) (schema "text" ["posts"]) = .ok plan ∧
      (retyped ["posts"]).Permitted target.capabilities ∧
      plan.statements.map (·.operation) = [.recreateTable] ∧
      ∀ statement ∈ plan.statements, statement.operation = .recreateTable →
        ∃ shadow, statement.shadow? = some shadow ∧ (retyped ["posts"]).LeavesFree shadow ∧
          target.capabilities.reservation? shadow = none := by
  have planned : ∃ plan,
      target.plan (schema "integer" ["posts"]) (schema "text" ["posts"]) = .ok plan ∧
        plan.statements.map (·.operation) = [.recreateTable] := by
    decide +kernel
  obtain ⟨plan, planned, operations⟩ := planned
  have permitted : (retyped ["posts"]).Permitted target.capabilities := by
    unfold SchemaChange.Permitted
    decide +kernel
  have room : ∀ pair ∈ (retyped ["posts"]).keptTables,
      pair.requiresRecreation Capabilities.d1 = true →
        (retyped ["posts"]).ShadowApart pair ∧ Text.lowered pair.new.name ≠ "cf" ∧
          Text.startsWith (Text.lowered pair.new.name) "cf_" = false := by
    unfold SchemaChange.ShadowApart
    decide +kernel
  refine ⟨plan, planned, permitted, operations, ?_⟩
  exact (Target.plan_shadowsStandAlone_iff planned permitted).mpr fun pair kept anew =>
    SchemaChange.leavesRoom_d1_iff.mpr (room pair kept anew)

open ShadowExample in
/-- The shadow of one table has the name of another, and that of a third is kept by the platform. -/
theorem plan_shadow_collides_pages :
    ∃ plan, target.plan (schema "integer" ["pages", "cf_pages"])
        (schema "text" ["pages", "cf_pages"]) = .ok plan ∧
      (retyped ["pages", "cf_pages"]).Permitted target.capabilities ∧
      (∃ statement ∈ plan.statements, statement.operation = .recreateTable ∧
        statement.shadow? = some (.plain "_pages_new")) ∧
      ¬(retyped ["pages", "cf_pages"]).LeavesFree (.plain "_pages_new") ∧
      (∃ statement ∈ plan.statements, statement.operation = .recreateTable ∧
        statement.shadow? = some (.plain "_cf_pages_new")) ∧
      target.capabilities.reservation? (.plain "_cf_pages_new") = some (.beginning "_cf_") := by
  have succeeds : ∃ plan, target.plan (schema "integer" ["pages", "cf_pages"])
      (schema "text" ["pages", "cf_pages"]) = .ok plan := by
    decide +kernel
  obtain ⟨plan, planned⟩ := succeeds
  have kept : ∀ name ∈ ["pages", "cf_pages"],
      retype name ∈ (retyped ["pages", "cf_pages"]).keptTables := by
    simp [SchemaChange.mem_keptTables, retyped, retype, schema, Target.schemaChange,
      Schema.tableMatching?, table, QualifiedName.agrees, Table.qualifiedName]
  have pages := Target.exists_shadow_of_plan planned (kept "pages" (by simp)) (by decide +kernel)
  have others :=
    Target.exists_shadow_of_plan planned (kept "cf_pages" (by simp)) (by decide +kernel)
  refine ⟨plan, planned, ?_, pages, ?_, others, by decide +kernel⟩
  · unfold SchemaChange.Permitted
    decide +kernel
  · unfold SchemaChange.LeavesFree
    decide +kernel

end SchemaDdl
