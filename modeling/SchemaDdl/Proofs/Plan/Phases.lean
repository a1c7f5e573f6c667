import SchemaDdl.Proofs.Plan.Statements

/-!
# Plans phase by phase

The actions of a plan in the order in which its statements run: phase after phase, and within a
phase as they were found. A plan is there exactly when all of these actions can be written, and its
statements carry them out one by one, so that all that is said of the order of statements is said of
the order of actions first.
-/

namespace SchemaDdl

/-! ## Actions of a phase -/

def actionsIn (phase : Phase) (steps : List PlanStep) : List Action :=
  (steps.filter (·.phase == phase)).map (·.action)

section

variable {phase : Phase} {actions : List Action} {action : Action} {steps others : List PlanStep}

theorem actionsIn_cons {step : PlanStep} :
    actionsIn phase (step :: steps) =
      if step.phase = phase then step.action :: actionsIn phase steps
      else actionsIn phase steps := by
  simp only [actionsIn, List.filter_cons, beq_iff_eq]
  split <;> rfl

@[simp] theorem actionsIn_append :
    actionsIn phase (steps ++ others) = actionsIn phase steps ++ actionsIn phase others := by
  simp [actionsIn]

@[simp] theorem actionsIn_flatMap {α : Type} {items : List α} {stepsOf : α → List PlanStep} :
    actionsIn phase (items.flatMap stepsOf) = items.flatMap (actionsIn phase <| stepsOf ·) := by
  simp [actionsIn, List.filter_flatMap, List.map_flatMap]

theorem actionsIn_map_routed :
    actionsIn phase (actions.map .routed) = actions.filter (·.operation.phase == phase) := by
  simp [actionsIn, List.filter_map, Function.comp_def, PlanStep.routed]

theorem actionsIn_map_routed_of_forall {own : Phase}
    (inside : ∀ action ∈ actions, action.operation.phase = own) :
    actionsIn phase (actions.map .routed) = if own = phase then actions else [] := by
  rw [actionsIn_map_routed]
  split
  · rename_i same
    exact List.filter_eq_self.mpr fun action member => by simp [inside action member, same]
  · rename_i different
    exact List.filter_eq_nil_iff.mpr fun action member => by simp [inside action member, different]

theorem actionsIn_map_create {α : Type} {objects : List α} (create : α → Action) (own : Phase)
    (inside : ∀ object, (create object).operation.phase = own) :
    actionsIn phase ((objects.map create).map .routed) =
      if own = phase then objects.map create else [] :=
  actionsIn_map_routed_of_forall (List.forall_mem_map.mpr fun object _ => inside object)

theorem mem_actionsIn : action ∈ actionsIn phase steps ↔ ⟨phase, action⟩ ∈ steps := by
  simp only [actionsIn, List.mem_map, List.mem_filter, beq_iff_eq]
  constructor
  · intro holds
    rcases holds with ⟨step, ⟨member, rfl⟩, rfl⟩
    exact member
  · intro member
    exact ⟨⟨phase, action⟩, ⟨member, rfl⟩, rfl⟩

end

/-- The actions of steps, phase after phase. -/
def orderedActions (steps : List PlanStep) : List Action :=
  Phase.all.flatMap (actionsIn · steps)

theorem orderedActions_eq (steps : List PlanStep) :
    orderedActions steps =
      actionsIn .creation steps ++ actionsIn .addition steps ++ actionsIn .modification steps
        ++ actionsIn .removal steps ++ actionsIn .tableRemoval steps := by
  simp [orderedActions, Phase.all]

theorem mem_orderedActions {steps : List PlanStep} {action : Action} :
    action ∈ orderedActions steps ↔ ∃ step ∈ steps, step.action = action := by
  simp only [orderedActions, List.mem_flatMap, mem_actionsIn]
  constructor
  · intro holds
    rcases holds with ⟨phase, _, member⟩
    exact ⟨_, member, rfl⟩
  · intro holds
    rcases holds with ⟨step, member, rfl⟩
    exact ⟨step.phase, step.phase.mem_all, member⟩

theorem orderedActions_perm (steps : List PlanStep) :
    (orderedActions steps).Perm (steps.map (·.action)) := by
  induction steps with
  | nil => exact .refl _
  | cons step steps induction =>
      refine .trans ?_ (induction.cons step.action)
      -- The action comes after those of the earlier phases.
      have middle := fun front back => @List.perm_middle _ step.action front back
      rw [orderedActions_eq, orderedActions_eq]
      cases phase : step.phase with
      | creation => simp [actionsIn_cons, phase]
      | addition => simp [actionsIn_cons, phase]
      | modification =>
          simpa [actionsIn_cons, phase] using
            middle (actionsIn .creation steps ++ actionsIn .addition steps) _
      | removal =>
          simpa [actionsIn_cons, phase] using
            middle (actionsIn .creation steps ++ actionsIn .addition steps
              ++ actionsIn .modification steps) _
      | tableRemoval =>
          simpa [actionsIn_cons, phase] using
            middle (actionsIn .creation steps ++ actionsIn .addition steps
              ++ actionsIn .modification steps ++ actionsIn .removal steps) _

theorem filter_orderedActions {steps : List PlanStep} {picked : Action → Bool} :
    (orderedActions steps).filter picked = orderedActions (steps.filter (picked ·.action)) := by
  have inPhase : ∀ phase, (actionsIn phase steps).filter picked =
      actionsIn phase (steps.filter (picked ·.action)) := by
    intro phase
    rw [actionsIn, actionsIn, List.filter_map, List.filter_filter, List.filter_filter]
    simp only [Function.comp_def, Bool.and_comm]
  simp only [orderedActions, List.filter_flatMap, inPhase]

/-! ## Statements of actions in a row -/

private theorem forall₂_filter {α β : Type} {Related : α → β → Prop} {left : α → Bool}
    {right : β → Bool} (same : ∀ item value, Related item value → right value = left item)
    {items : List α} {values : List β} (related : List.Forall₂ Related items values) :
    List.Forall₂ Related (items.filter left) (values.filter right) := by
  induction related with
  | nil => exact .nil
  | cons headRelated _ induction =>
      rw [List.filter_cons, List.filter_cons, same _ _ headRelated]
      split
      · exact .cons headRelated induction
      · exact induction

namespace Target

variable {target : Target} {actions others : List Action} {written : List Statement}

theorem statements_eq_ok_iff :
    target.statements actions = .ok written ↔
      List.Forall₂ (fun action statement => target.statement action = .ok statement) actions
        written :=
  mapM_eq_ok_iff

theorem statements_append_eq_ok_iff :
    target.statements (actions ++ others) = .ok written ↔
      ∃ first second, written = first ++ second ∧ target.statements actions = .ok first ∧
        target.statements others = .ok second := by
  unfold statements
  rw [List.mapM_append, bind_eq_ok_iff]
  constructor
  · intro holds
    rcases holds with ⟨first, firstOk, rest⟩
    rcases bind_eq_ok_iff.mp rest with ⟨second, secondOk, equal⟩
    cases equal
    exact ⟨first, second, rfl, firstOk, secondOk⟩
  · intro holds
    rcases holds with ⟨first, second, rfl, firstOk, secondOk⟩
    exact ⟨first, firstOk, bind_eq_ok_iff.mpr ⟨second, secondOk, rfl⟩⟩

theorem statements_filter {picked : Action → Bool} {kept : Statement → Bool}
    (same : ∀ action statement, target.statement action = .ok statement →
      kept statement = picked action)
    (done : target.statements actions = .ok written) :
    target.statements (actions.filter picked) = .ok (written.filter kept) :=
  statements_eq_ok_iff.mpr (forall₂_filter same (statements_eq_ok_iff.mp done))

theorem map_operation_of_statements (done : target.statements actions = .ok written) :
    written.map (·.operation) = actions.map (·.operation) := by
  rw [statements_eq_ok_iff] at done
  induction done with
  | nil => rfl
  | cons headDone _ induction =>
      rw [List.map_cons, List.map_cons, induction, operation_of_statement headDone]

theorem pairwise_operation_of_statements (related : Operation → Operation → Prop)
    (done : target.statements actions = .ok written)
    (pairwise : actions.Pairwise fun earlier later => related earlier.operation later.operation) :
    written.Pairwise fun earlier later => related earlier.operation later.operation := by
  have mapped : (written.map (·.operation)).Pairwise related := by
    rw [map_operation_of_statements done]
    exact List.pairwise_map.mpr pairwise
  exact List.pairwise_map.mp mapped

/-! ## Statements of a plan -/

/-- The actions of a plan in the order in which its statements run. -/
def orderedActions (target : Target) (old new : Schema) : List Action :=
  SchemaDdl.orderedActions
    ((target.schemaChange old new).steps target.capabilities target.options.comments)

variable {old new : Schema} {plan : MigrationPlan}

private theorem statements_orderedActions {steps : List PlanStep}
    {pairs : List (Phase × Statement)} (done : steps.mapM target.stepStatement = .ok pairs) :
    target.statements (SchemaDdl.orderedActions steps) = .ok (inPhaseOrder pairs) := by
  have inPhase : ∀ phase, List.Forall₂
      (fun action statement => target.statement action = .ok statement) (actionsIn phase steps)
      ((pairs.filter (·.1 == phase)).map Prod.snd) := by
    intro phase
    have picked : List.Forall₂ (fun step pair => target.stepStatement step = .ok pair)
        (steps.filter (·.phase == phase)) (pairs.filter (·.1 == phase)) := by
      refine forall₂_filter (fun step pair stepDone => ?_) (mapM_eq_ok_iff.mp done)
      rcases map_eq_ok_iff.mp stepDone with ⟨statement, _, rfl⟩
      rfl
    refine List.forall₂_map_left_iff.mpr (List.forall₂_map_right_iff.mpr (picked.imp ?_))
    intro step pair stepDone
    rcases map_eq_ok_iff.mp stepDone with ⟨statement, written, rfl⟩
    exact written
  rw [statements_eq_ok_iff]
  unfold SchemaDdl.orderedActions inPhaseOrder
  induction Phase.all with
  | nil => exact .nil
  | cons phase phases induction => exact List.rel_append (inPhase phase) induction

theorem plan_eq_ok_iff :
    target.plan old new = .ok plan ↔
      target.statements (target.orderedActions old new) = .ok plan.statements ∧
        (target.schemaChange old new).warnings = plan.warnings := by
  constructor
  · intro planned
    rcases bind_eq_ok_iff.mp planned with ⟨pairs, pairsOk, equal⟩
    cases equal
    exact ⟨statements_orderedActions pairsOk, rfl⟩
  · intro holds
    rcases holds with ⟨written, warned⟩
    have each : Succeeds (((target.schemaChange old new).steps target.capabilities
        target.options.comments).mapM target.stepStatement) := by
      refine succeeds_mapM.mpr fun step member => succeeds_map.mpr ?_
      exact succeeds_mapM.mp ⟨_, written⟩ step.action (mem_orderedActions.mpr ⟨step, member, rfl⟩)
    rcases each with ⟨pairs, pairsOk⟩
    have same := (statements_orderedActions pairsOk).symm.trans written
    refine bind_eq_ok_iff.mpr ⟨pairs, pairsOk, ?_⟩
    cases plan
    cases warned
    cases same
    rfl

theorem succeeds_plan :
    Succeeds (target.plan old new) ↔
      Succeeds (target.statements (target.orderedActions old new)) := by
  constructor
  · intro planned
    rcases planned with ⟨plan, planned⟩
    exact ⟨_, (plan_eq_ok_iff.mp planned).1⟩
  · intro done
    rcases done with ⟨written, done⟩
    exact ⟨⟨written, _⟩, plan_eq_ok_iff.mpr ⟨done, rfl⟩⟩

end Target

end SchemaDdl
