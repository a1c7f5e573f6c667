import SchemaDdl.Capability.BuiltIn
import SchemaDdl.Proofs.Plan.Dependency
import SchemaDdl.Proofs.Plan.Parts

/-!
# The order of a plan

Tables are created before anything is done to columns, constraints and indexes, each after the
tables that it refers to, and they are dropped after everything else, each before the tables that it
refers to. Between the two, additions come before removals, and what takes the place of something
else is dropped and added between them.
-/

namespace SchemaDdl

/-! ## Operations of the phases -/

theorem Operation.creates_of_phase {operation : Operation}
    (creation : operation.phase = .creation) :
    operation ∈ [.createExtension, .createType, .createSequence, .createTable] := by
  revert creation
  cases operation <;> decide

theorem Operation.of_leads {operation : Operation}
    (leads : operation ∈ [.createExtension, .createType, .createSequence]) :
    operation.phase = .creation ∧ operation ≠ .createTable := by
  revert leads
  cases operation <;> decide

theorem Operation.eq_of_phase_tableRemoval {operation : Operation}
    (removal : operation.phase = .tableRemoval) : operation = .dropTable := by
  revert removal
  cases operation <;> decide

theorem Operation.removes_iff {operation : Operation} :
    operation.removes = true ↔ operation.phase = .removal := by
  cases operation <;> decide

theorem Operation.adds_iff {operation : Operation} :
    operation.adds = true ↔ operation.phase = .addition := by
  cases operation <;> decide

namespace SchemaChange

variable {change : SchemaChange} {capabilities : Capabilities} {comments : Bool} {phase : Phase}

theorem phase_of_mem_actionsIn :
    ∀ action ∈ actionsIn phase (change.steps capabilities comments),
      action.operation.phase = phase ∨ phase = .modification ∧
        action.operation.phase ≠ .creation ∧ action.operation.phase ≠ .tableRemoval := by
  have routed : ∀ {actions : List Action}, ∀ action ∈ actionsIn phase (actions.map .routed),
      action.operation.phase = phase := by
    intro actions action member
    rw [actionsIn_map_routed] at member
    exact beq_iff_eq.mp (List.mem_filter.mp member).2
  intro action member
  rw [steps_eq, creationSteps_eq, dropSteps_eq, actionsIn_append, actionsIn_append,
    actionsIn_append, actionsIn_append, actionsIn_flatMap] at member
  simp only [List.mem_append] at member
  rcases member with (((member | member) | member) | member) | member
  · rcases of_mem_leadingSteps (mem_actionsIn.mp member) with ⟨own, operation⟩
    exact .inl ((Operation.of_leads operation).1.trans own.symm)
  · exact .inl (routed action member)
  · rcases List.mem_flatMap.mp member with ⟨pair, _, member⟩
    have alteration := TableChange.isAlteration_of_mem_steps _ (mem_actionsIn.mp member)
    rcases alteration.phase with own | inPlace
    · exact .inl own.symm
    · exact .inr ⟨inPlace, alteration.notCreation, alteration.notTableRemoval⟩
  · exact .inl (routed action member)
  · rcases of_mem_trailingSteps (mem_actionsIn.mp member) with ⟨own, operation⟩
    exact .inl (operation.trans own.symm)

theorem operation_phase_of_mem_actionsIn (other : phase ≠ .modification) :
    ∀ action ∈ actionsIn phase (change.steps capabilities comments),
      action.operation.phase = phase := fun action member =>
  (phase_of_mem_actionsIn action member).resolve_right fun inPlace => other inPlace.1

theorem operation_ne_of_mem_actionsIn (operation : Operation)
    (ofTables : operation.phase = .creation ∨ operation.phase = .tableRemoval)
    (elsewhere : operation.phase ≠ phase) :
    ∀ action ∈ actionsIn phase (change.steps capabilities comments),
      action.operation ≠ operation := by
  rintro action member rfl
  rcases phase_of_mem_actionsIn action member with own | ⟨_, notCreation, notRemoval⟩
  · exact elsewhere own
  · rcases ofTables with creation | removal
    · exact notCreation creation
    · exact notRemoval removal

theorem filter_operation_eq_nil (operation : Operation) (phase : Phase)
    (ofTables : operation.phase = .creation ∨ operation.phase = .tableRemoval)
    (elsewhere : operation.phase ≠ phase) :
    (actionsIn phase (change.steps capabilities comments)).filter (·.operation == operation) =
      [] :=
  List.filter_eq_nil_iff.mpr fun action member => by
    simpa using operation_ne_of_mem_actionsIn operation ofTables elsewhere action member

theorem filter_createTable :
    (orderedActions (change.steps capabilities comments)).filter (·.operation == .createTable) =
      change.creationOrder.map .createTable := by
  have leading :
      (change.leadingSteps.map (·.action)).filter (·.operation == .createTable) = [] := by
    refine List.filter_eq_nil_iff.mpr (List.forall_mem_map.mpr fun step member => ?_)
    simpa using (Operation.of_leads (of_mem_leadingSteps member).2).2
  have created : (change.creationOrder.map Action.createTable).filter
      (·.operation == .createTable) = change.creationOrder.map .createTable :=
    List.filter_eq_self.mpr (List.forall_mem_map.mpr fun _ _ => rfl)
  rw [orderedActions_eq]
  simp only [List.filter_append]
  rw [filter_operation_eq_nil .createTable .addition (.inl rfl) (by decide),
    filter_operation_eq_nil .createTable .modification (.inl rfl) (by decide),
    filter_operation_eq_nil .createTable .removal (.inl rfl) (by decide),
    filter_operation_eq_nil .createTable .tableRemoval (.inl rfl) (by decide), actionsIn_steps]
  simp only [List.filter_append, leading, created, List.nil_append, List.append_nil]

theorem filter_dropTable :
    (orderedActions (change.steps capabilities comments)).filter (·.operation == .dropTable) =
      change.dropOrder.map fun table => .dropTable table.qualifiedName := by
  have dropped : (change.dropOrder.map fun table => Action.dropTable table.qualifiedName).filter
      (·.operation == .dropTable) = change.dropOrder.map fun table =>
        .dropTable table.qualifiedName :=
    List.filter_eq_self.mpr (List.forall_mem_map.mpr fun _ _ => rfl)
  rw [orderedActions_eq]
  simp only [List.filter_append]
  rw [filter_operation_eq_nil .dropTable .creation (.inr rfl) (by decide),
    filter_operation_eq_nil .dropTable .addition (.inr rfl) (by decide),
    filter_operation_eq_nil .dropTable .modification (.inr rfl) (by decide),
    filter_operation_eq_nil .dropTable .removal (.inr rfl) (by decide), actionsIn_steps, dropped]
  rfl

theorem pairwise_createTable :
    (orderedActions (change.steps capabilities comments)).Pairwise fun earlier later =>
      later.operation = .createTable →
        earlier.operation ∈ [.createExtension, .createType, .createSequence, .createTable] := by
  have first : ∀ action ∈ actionsIn .creation (change.steps capabilities comments),
      action.operation ∈ [.createExtension, .createType, .createSequence, .createTable] := by
    intro action member
    rcases phase_of_mem_actionsIn action member with own | ⟨inPlace, _⟩
    · exact Operation.creates_of_phase own
    · cases inPlace
  have others : ∀ phase, Phase.creation ≠ phase →
      ∀ action ∈ actionsIn phase (change.steps capabilities comments),
        action.operation ≠ .createTable :=
    fun _ => operation_ne_of_mem_actionsIn .createTable (.inl rfl)
  have rest : ∀ action ∈ actionsIn .addition (change.steps capabilities comments)
      ++ (actionsIn .modification (change.steps capabilities comments)
        ++ (actionsIn .removal (change.steps capabilities comments)
          ++ actionsIn .tableRemoval (change.steps capabilities comments))),
      action.operation ≠ .createTable := by
    simp only [List.forall_mem_append]
    exact ⟨others _ nofun, others _ nofun, others _ nofun, others _ nofun⟩
  rw [orderedActions_eq]
  simp only [List.append_assoc]
  refine List.pairwise_append.mpr ⟨?_, ?_, ?_⟩
  · exact List.pairwise_of_forall_mem_list fun earlier member _ _ _ => first earlier member
  · exact List.pairwise_of_forall_mem_list fun _ _ later member last =>
      absurd last (rest later member)
  · exact fun earlier member _ _ _ => first earlier member

theorem pairwise_dropTable :
    (orderedActions (change.steps capabilities comments)).Pairwise fun earlier later =>
      earlier.operation = .dropTable → later.operation = .dropTable := by
  have last : ∀ action ∈ actionsIn .tableRemoval (change.steps capabilities comments),
      action.operation = .dropTable := by
    intro action member
    rcases phase_of_mem_actionsIn action member with own | ⟨inPlace, _⟩
    · exact Operation.eq_of_phase_tableRemoval own
    · cases inPlace
  have others : ∀ phase, Phase.tableRemoval ≠ phase →
      ∀ action ∈ actionsIn phase (change.steps capabilities comments),
        action.operation ≠ .dropTable :=
    fun _ => operation_ne_of_mem_actionsIn .dropTable (.inr rfl)
  have before : ∀ action ∈ actionsIn .creation (change.steps capabilities comments)
      ++ actionsIn .addition (change.steps capabilities comments)
      ++ actionsIn .modification (change.steps capabilities comments)
      ++ actionsIn .removal (change.steps capabilities comments),
      action.operation ≠ .dropTable := by
    simp only [List.forall_mem_append]
    exact ⟨⟨⟨others _ nofun, others _ nofun⟩, others _ nofun⟩, others _ nofun⟩
  rw [orderedActions_eq]
  refine List.pairwise_append.mpr ⟨?_, ?_, ?_⟩
  · exact List.pairwise_of_forall_mem_list fun earlier member _ _ drops =>
      absurd drops (before earlier member)
  · exact List.pairwise_of_forall_mem_list fun _ _ later member _ => last later member
  · exact fun earlier member _ _ drops => absurd drops (before earlier member)

/-! ## Additions, changes and removals -/

theorem removes_of_mem_additions :
    ∀ action ∈ actionsIn .creation (change.steps capabilities comments)
      ++ actionsIn .addition (change.steps capabilities comments),
      action.operation.removes = false := by
  have quiet : ∀ phase, phase ≠ .modification → phase ≠ .removal →
      ∀ action ∈ actionsIn phase (change.steps capabilities comments),
        action.operation.removes = false := by
    intro phase notChange notRemoval action member
    refine Bool.eq_false_iff.mpr fun removes => ?_
    rcases phase_of_mem_actionsIn action member with own | ⟨inPlace, _⟩
    · exact notRemoval (own.symm.trans (Operation.removes_iff.mp removes))
    · exact notChange inPlace
  exact List.forall_mem_append.mpr ⟨quiet _ nofun nofun, quiet _ nofun nofun⟩

theorem adds_of_mem_removals :
    ∀ action ∈ actionsIn .removal (change.steps capabilities comments)
      ++ actionsIn .tableRemoval (change.steps capabilities comments),
      action.operation.adds = false := by
  have quiet : ∀ phase, phase ≠ .modification → phase ≠ .addition →
      ∀ action ∈ actionsIn phase (change.steps capabilities comments),
        action.operation.adds = false := by
    intro phase notChange notAddition action member
    refine Bool.eq_false_iff.mpr fun adds => ?_
    rcases phase_of_mem_actionsIn action member with own | ⟨inPlace, _⟩
    · exact notAddition (own.symm.trans (Operation.adds_iff.mp adds))
    · exact notChange inPlace
  exact List.forall_mem_append.mpr ⟨quiet _ nofun nofun, quiet _ nofun nofun⟩

theorem changesInPlace_modification :
    ChangesInPlace change.keptTables
      (actionsIn .modification (change.steps capabilities comments)) := by
  rw [actionsIn_steps]
  refine (ChangesInPlace.append ?_ ?_).append ?_
  · refine .of_modification fun action member => ?_
    rcases List.mem_flatMap.mp member with ⟨table, _, member⟩
    exact phase_of_mem_completion member
  · exact .flatMap fun pair kept => TableChange.changesInPlace_steps kept
  · refine .of_modification (List.forall_mem_map.mpr fun step member => ?_)
    exact (of_mem_trailingSteps member).2

/-! ## Order of tables -/

theorem perm_creationOrder : change.creationOrder.Perm change.createdTables :=
  perm_inDependencyOrder

theorem perm_dropOrder : change.dropOrder.Perm change.droppedTables :=
  (List.reverse_perm _).trans perm_inDependencyOrder

theorem pairwise_creationOrder (apart : change.new.NamesApart change.defaultSchema)
    (acyclic : WithoutCycles change.defaultSchema change.createdTables) :
    change.creationOrder.Pairwise fun earlier later =>
      ¬earlier.RefersTo change.defaultSchema later :=
  pairwise_inDependencyOrder (List.Pairwise.filter _ apart) acyclic

theorem pairwise_dropOrder (apart : change.old.NamesApart change.defaultSchema)
    (acyclic : WithoutCycles change.defaultSchema change.droppedTables) :
    change.dropOrder.Pairwise fun earlier later =>
      ¬later.RefersTo change.defaultSchema earlier :=
  List.pairwise_reverse.mpr (pairwise_inDependencyOrder (List.Pairwise.filter _ apart) acyclic)

end SchemaChange

/-! ## Order of statements -/

/-- In which order statements turn one version of a schema into another. -/
structure Target.InOrder (target : Target) (change : SchemaChange) (statements : List Statement) :
    Prop where
  created : ∃ tables : List Table, tables.Perm change.createdTables ∧
    target.statements (tables.map .createTable) =
      .ok (statements.filter (·.operation == .createTable)) ∧
    (WithoutCycles change.defaultSchema change.createdTables →
      tables.Pairwise fun earlier later => ¬earlier.RefersTo change.defaultSchema later)
  dropped : ∃ tables : List Table, tables.Perm change.droppedTables ∧
    target.statements (tables.map fun table => .dropTable table.qualifiedName) =
      .ok (statements.filter (·.operation == .dropTable)) ∧
    (WithoutCycles change.defaultSchema change.droppedTables →
      tables.Pairwise fun earlier later => ¬later.RefersTo change.defaultSchema earlier)
  creationFirst : statements.Pairwise fun earlier later => later.operation = .createTable →
    earlier.operation ∈ [.createExtension, .createType, .createSequence, .createTable]
  removalLast : statements.Pairwise fun earlier later =>
    earlier.operation = .dropTable → later.operation = .dropTable
  additionsFirst : ∃ before middle after actions, statements = before ++ middle ++ after ∧
    (∀ statement ∈ before, statement.operation.removes = false) ∧
    (∀ statement ∈ after, statement.operation.adds = false) ∧
    target.statements actions = .ok middle ∧ ChangesInPlace change.keptTables actions

namespace Target

variable {target : Target} {old new : Schema} {plan : MigrationPlan}

theorem operation_of_mem_statements {actions : List Action} {written : List Statement}
    (holds : Operation → Prop) (done : target.statements actions = .ok written)
    (each : ∀ action ∈ actions, holds action.operation) :
    ∀ statement ∈ written, holds statement.operation := by
  intro statement member
  rcases exists_item_of_mapM done member with ⟨action, actionMember, statementOk⟩
  rw [operation_of_statement statementOk]
  exact each action actionMember

/-- A plan creates each new table and drops each old one once, in the order of their references, and
it adds before it removes. -/
theorem plan_inOrder (planned : target.plan old new = .ok plan)
    (oldApart : old.NamesApart target.capabilities.defaultSchema)
    (newApart : new.NamesApart target.capabilities.defaultSchema) :
    target.InOrder (target.schemaChange old new) plan.statements := by
  have written := (plan_eq_ok_iff.mp planned).1
  constructor
  · refine ⟨_, SchemaChange.perm_creationOrder, ?_, SchemaChange.pairwise_creationOrder newApart⟩
    rw [← SchemaChange.filter_createTable]
    exact statements_filter (fun _ _ done => by rw [operation_of_statement done]) written
  · refine ⟨_, SchemaChange.perm_dropOrder, ?_, SchemaChange.pairwise_dropOrder oldApart⟩
    rw [← SchemaChange.filter_dropTable]
    exact statements_filter (fun _ _ done => by rw [operation_of_statement done]) written
  · exact pairwise_operation_of_statements
      (fun earlier later => later = .createTable →
        earlier ∈ [.createExtension, .createType, .createSequence, .createTable])
      written SchemaChange.pairwise_createTable
  · exact pairwise_operation_of_statements
      (fun earlier later => earlier = .dropTable → later = .dropTable) written
      SchemaChange.pairwise_dropTable
  · rw [orderedActions, orderedActions_eq, List.append_assoc _ (actionsIn .removal _)] at written
    rcases statements_append_eq_ok_iff.mp written with ⟨others, after, whole, othersOk, afterOk⟩
    rcases statements_append_eq_ok_iff.mp othersOk with ⟨before, middle, parts, beforeOk, middleOk⟩
    exact ⟨before, middle, after, _, parts ▸ whole,
      operation_of_mem_statements (·.removes = false) beforeOk
        SchemaChange.removes_of_mem_additions,
      operation_of_mem_statements (·.adds = false) afterOk SchemaChange.adds_of_mem_removals,
      middleOk, SchemaChange.changesInPlace_modification⟩

end Target

/-! ## An example -/

namespace OrderExample

def identity : Column := { name := "id", dataType := "integer", primaryKey := true }

def reference (name table : String) : Column :=
  { name, dataType := "integer", references := some { table := .plain table, column := "id" } }

def slug (expression : String) : Column :=
  { name := "slug", dataType := "text", generated := some { expression } }

def slugIndex (unique : Bool) : Index :=
  { name := "pages_slug", table := .plain "pages", keys := [{ target := .column "slug" }], unique }

def authors : Table := { name := "authors", columns := [identity] }

def posts : Table := { name := "posts", columns := [reference "author" "authors"] }

def visitors : Table := { name := "visitors", columns := [identity] }

def visits : Table := { name := "visits", columns := [reference "visitor" "visitors"] }

def old : Schema where
  tables := [visitors, visits, {
    name := "pages"
    columns := [identity, slug "lower(title)", { name := "note", dataType := "text" }]
    indexes := [slugIndex false] }]

def new : Schema where
  tables := [{
    name := "pages"
    columns := [identity, slug "upper(title)", reference "author" "authors"]
    indexes := [slugIndex true] }, posts, authors]

def course : List (Operation × Option String) :=
  [(.createTable, some "authors"), (.createTable, some "posts"), (.addColumn, some "pages.author"),
    (.dropColumn, some "pages.slug"), (.addColumn, some "pages.slug"),
    (.dropIndex, some "pages_slug"), (.createIndex, some "pages_slug"),
    (.dropColumn, some "pages.note"), (.dropTable, some "visits"), (.dropTable, some "visitors")]

theorem withoutCycles_posts : WithoutCycles "public" [posts, authors] := by
  refine .of_rank (fun table => table.foreignKeyTargets.length) fun table target leads => ?_
  rcases leads with ⟨tableMember, targetMember, different, name, named, _⟩
  rcases List.mem_pair.mp tableMember with rfl | rfl
  · rcases List.mem_pair.mp targetMember with rfl | rfl
    · exact absurd rfl different
    · decide
  · cases named

end OrderExample

open OrderExample in
/-- The authors are created before their posts and the visits are dropped before the visitors; the
changed column and its index are dropped and added between the additions and the removals. -/
theorem plan_inOrder_pages :
    old.NamesApart "public" ∧ new.NamesApart "public" ∧ WithoutCycles "public" [posts, authors] ∧
      ∃ plan, Target.plan ⟨Capabilities.postgres, {}⟩ old new = .ok plan ∧
        plan.statements.map (fun statement => (statement.operation, statement.affected.head?)) =
          course ∧
        Target.InOrder ⟨Capabilities.postgres, {}⟩ ⟨old, new, "public"⟩ plan.statements := by
  have oldApart : old.NamesApart "public" := by decide
  have newApart : new.NamesApart "public" := by decide
  have succeeds : ∃ plan, Target.plan ⟨Capabilities.postgres, {}⟩ old new = .ok plan ∧
      plan.statements.map (fun statement => (statement.operation, statement.affected.head?)) =
        course := by
    decide +kernel
  rcases succeeds with ⟨plan, planned, operations⟩
  exact ⟨oldApart, newApart, withoutCycles_posts, plan, planned, operations,
    Target.plan_inOrder planned oldApart newApart⟩

end SchemaDdl
