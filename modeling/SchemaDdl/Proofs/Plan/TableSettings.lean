import SchemaDdl.Capability.BuiltIn
import SchemaDdl.Proofs.Plan.Replacement

/-!
# Settings after an alteration

An alteration of the Postgres family turns the storage parameters and the locality of a table into
those of its new version: what is gone is reset, the rest is set. A zone configuration is only ever
set, so that what it has lost stays as it was.
-/

namespace SchemaDdl

/-! ## What a table is set to -/

def parameterValue? (parameters : List StorageOption) (key : String) : Option String :=
  (parameters.find? (·.key == key)).map (·.value)

@[ext] structure HeldSettings where
  parameters : String → Option String
  locality : String
  zone : String → Option String

namespace HeldSettings

/-- What a table is set to after one more setting. A parameter that is not named stays. -/
def after (held : HeldSettings) : TableSetting → HeldSettings
  | .reset keys =>
      { held with parameters := fun key => if key ∈ keys then none else held.parameters key }
  | .set parameters =>
      { held with
        parameters := fun key => (parameterValue? parameters key).or (held.parameters key) }
  | .locality clause => { held with locality := clause.getD Target.settingText.defaultLocality }
  | .zone parameters =>
      { held with zone := fun key => (parameterValue? parameters key).or (held.zone key) }
  | .setLogged | .setUnlogged | .tablespace _ => held

def afterAll (held : HeldSettings) (settings : List TableSetting) : HeldSettings :=
  settings.foldl after held

theorem afterAll_append {held : HeldSettings} {settings others : List TableSetting} :
    held.afterAll (settings ++ others) = (held.afterAll settings).afterAll others :=
  List.foldl_append

end HeldSettings

def Table.heldSettings (table : Table) : HeldSettings where
  parameters := parameterValue? table.options.parameters
  locality := table.platform.locality.getD Target.settingText.defaultLocality
  zone := parameterValue? table.platform.zoneConfig

def Action.setting? : Action → Option (QualifiedName × TableSetting)
  | .setTable table setting => some (table, setting)
  | _ => none

/-! ## Parameters by name -/

section

variable {parameters : List StorageOption} {key value : String}

@[simp] theorem parameterValue?_nil : parameterValue? [] key = none := rfl

theorem parameterValue?_eq_none_iff :
    parameterValue? parameters key = none ↔ ∀ parameter ∈ parameters, parameter.key ≠ key := by
  simp [parameterValue?]

theorem mem_of_parameterValue? (found : parameterValue? parameters key = some value) :
    ⟨key, value⟩ ∈ parameters := by
  obtain ⟨parameter, first, rfl⟩ := Option.map_eq_some_iff.mp found
  have named : parameter.key = key := by simpa using List.find?_some first
  rw [← named]
  exact List.mem_of_find?_eq_some first

theorem parameterValue?_eq_some_iff (distinct : (parameters.map (·.key)).Nodup) :
    parameterValue? parameters key = some value ↔ ⟨key, value⟩ ∈ parameters := by
  constructor
  · exact mem_of_parameterValue?
  · intro member
    cases found : parameterValue? parameters key with
    | none => exact absurd rfl (parameterValue?_eq_none_iff.mp found _ member)
    | some other =>
      have same := List.inj_on_of_nodup_map distinct (mem_of_parameterValue? found) member rfl
      cases same
      rfl

end

namespace TableChange

variable {change : TableChange} {capabilities : Capabilities} {comments : Bool}
  {held : HeldSettings} {key : String}

/-! ## What an alteration sets -/

theorem mem_resetKeys : key ∈ change.resetKeys ↔
    (∃ parameter ∈ change.old.options.parameters, parameter.key = key) ∧
      ∀ parameter ∈ change.new.options.parameters, parameter.key ≠ key := by
  simp only [resetKeys, List.mem_map, List.mem_filter, Bool.not_eq_true', List.any_eq_false,
    beq_iff_eq]
  constructor
  · rintro ⟨parameter, ⟨member, gone⟩, rfl⟩
    exact ⟨⟨parameter, member, rfl⟩, gone⟩
  · rintro ⟨⟨parameter, member, rfl⟩, gone⟩
    exact ⟨parameter, ⟨member, gone⟩, rfl⟩

theorem mem_setParameters {parameter : StorageOption} : parameter ∈ change.setParameters ↔
    parameter ∈ change.new.options.parameters ∧ parameter ∉ change.old.options.parameters := by
  simp [setParameters]

theorem parameterValue?_converges (oldDistinct : (change.old.options.parameters.map (·.key)).Nodup)
    (newDistinct : (change.new.options.parameters.map (·.key)).Nodup) :
    (parameterValue? change.setParameters key).or
        (if key ∈ change.resetKeys then none
          else parameterValue? change.old.options.parameters key) =
      parameterValue? change.new.options.parameters key := by
  have setDistinct : (change.setParameters.map (·.key)).Nodup :=
    newDistinct.sublist (List.filter_sublist.map _)
  cases found : parameterValue? change.new.options.parameters key with
  | none =>
    have gone := parameterValue?_eq_none_iff.mp found
    have unset : parameterValue? change.setParameters key = none :=
      parameterValue?_eq_none_iff.mpr fun parameter member =>
        gone parameter (mem_setParameters.mp member).1
    rw [unset, Option.none_or]
    split
    · rfl
    · rename_i kept
      apply parameterValue?_eq_none_iff.mpr
      intro parameter member named
      exact kept (mem_resetKeys.mpr ⟨⟨parameter, member, named⟩, gone⟩)
  | some value =>
    have listed := mem_of_parameterValue? found
    have unreset : key ∉ change.resetKeys := by
      intro reset
      exact (mem_resetKeys.mp reset).2 _ listed rfl
    rw [if_neg unreset]
    -- A parameter with its old value is left alone, and then keeps it.
    by_cases same : ⟨key, value⟩ ∈ change.old.options.parameters
    · have unset : parameterValue? change.setParameters key = none := by
        apply parameterValue?_eq_none_iff.mpr
        intro parameter member named
        obtain ⟨new, fresh⟩ := mem_setParameters.mp member
        cases List.inj_on_of_nodup_map newDistinct new listed named
        exact fresh same
      rw [unset, Option.none_or]
      exact (parameterValue?_eq_some_iff oldDistinct).mpr same
    · rw [(parameterValue?_eq_some_iff setDistinct).mpr (mem_setParameters.mpr ⟨listed, same⟩),
        Option.some_or]

theorem afterAll_settingIf {condition : Bool} {setting : TableSetting}
    (idle : condition = false → held.after setting = held) :
    held.afterAll (settingIf condition setting) = held.after setting := by
  cases condition with
  | false => exact (idle rfl).symm
  | true => rfl

theorem afterAll_optionSettings (oldDistinct : (change.old.options.parameters.map (·.key)).Nodup)
    (newDistinct : (change.new.options.parameters.map (·.key)).Nodup)
    (old : held.parameters = change.old.heldSettings.parameters) :
    held.afterAll (change.optionSettings capabilities) =
      { held with parameters := change.new.heldSettings.parameters } := by
  have logged (condition : Bool) : held.afterAll (settingIf condition
      (if change.new.options.unlogged then .setUnlogged else .setLogged)) = held := by
    cases condition <;> cases change.new.options.unlogged <;> rfl
  have placed (condition : Bool) (tablespace : Option String) :
      held.afterAll (settingIf condition (.tablespace tablespace)) = held := by
    cases condition <;> rfl
  have reset : held.afterAll (settingIf (!change.resetKeys.isEmpty) (.reset change.resetKeys)) =
      held.after (.reset change.resetKeys) := by
    apply afterAll_settingIf
    intro nothing
    have empty : change.resetKeys = [] := by simpa using nothing
    simp [HeldSettings.after, empty]
  have set (held : HeldSettings) :
      held.afterAll (settingIf (!change.setParameters.isEmpty) (.set change.setParameters)) =
        held.after (.set change.setParameters) := by
    apply afterAll_settingIf
    intro nothing
    have empty : change.setParameters = [] := by simpa using nothing
    simp [HeldSettings.after, empty]
  unfold optionSettings
  simp only [HeldSettings.afterAll_append, logged, placed, reset, set]
  ext key : 2
  · simp only [HeldSettings.after, old]
    exact parameterValue?_converges oldDistinct newDistinct
  all_goals rfl

theorem afterAll_platformSettings (locality : capabilities.supports .locality = true)
    (zone : capabilities.supports .zoneConfig = true)
    (old : held.locality = change.old.heldSettings.locality)
    (oldZone : held.zone = change.old.heldSettings.zone) :
    held.afterAll (change.platformSettings capabilities) =
      { held with
        locality := change.new.heldSettings.locality
        zone := fun key =>
          (change.new.heldSettings.zone key).or (change.old.heldSettings.zone key) } := by
  have placed : held.afterAll (settingIf
      (change.old.platform.locality != change.new.platform.locality
        && capabilities.supports .locality) (.locality change.new.platform.locality)) =
      held.after (.locality change.new.platform.locality) := by
    apply afterAll_settingIf
    intro same
    rw [locality, Bool.and_true, bne_eq_false_iff_eq] at same
    ext : 1
    · rfl
    · simp only [HeldSettings.after, old, Table.heldSettings, same]
    · rfl
  have zoned (held : HeldSettings) (oldZone : held.zone = change.old.heldSettings.zone) :
      held.afterAll (settingIf (change.old.platform.zoneConfig != change.new.platform.zoneConfig
        && !change.new.platform.zoneConfig.isEmpty && capabilities.supports .zoneConfig)
          (.zone change.new.platform.zoneConfig)) =
        held.after (.zone change.new.platform.zoneConfig) := by
    apply afterAll_settingIf
    intro same
    rw [zone, Bool.and_true, Bool.and_eq_false_iff, bne_eq_false_iff_eq, Bool.not_eq_false',
      List.isEmpty_iff] at same
    have idle : (fun key => (parameterValue? change.new.platform.zoneConfig key).or
        (held.zone key)) = held.zone := by
      funext key
      rcases same with same | empty
      · rw [oldZone, Table.heldSettings, same, Option.or_self]
      · rw [empty, parameterValue?_nil, Option.none_or]
    simp only [HeldSettings.after, idle]
  unfold platformSettings
  rw [HeldSettings.afterAll_append, placed,
    zoned (held.after (.locality change.new.platform.locality)) oldZone]
  simp only [HeldSettings.after, oldZone]
  rfl

/-! ## The settings of an alteration -/

/-- The settings that an alteration changes, in their order. -/
def settings (change : TableChange) (capabilities : Capabilities) : List TableSetting :=
  change.optionSettings capabilities ++ change.platformSettings capabilities

theorem setting?_of_mem_columnActions {pair : ColumnChange} :
    ∀ action ∈ change.columnActions comments pair, action.setting? = none := by
  intro action member
  cases regenerates : pair.regenerates with
  | true =>
    rw [columnActions_of_regenerates regenerates] at member
    rcases List.mem_pair.mp member with rfl | rfl <;> rfl
  | false => cases AltersColumn.of_mem_columnActions regenerates action member <;> rfl

theorem optionSettings_eq_nil (same : change.optionsChanged = false) :
    change.optionSettings capabilities = [] := by
  have options : change.old.options = change.new.options := by
    simp only [optionsChanged, Bool.or_eq_false_iff, bne_eq_false_iff_eq] at same
    exact same.1.1
  have reset : change.resetKeys = [] := by
    apply List.eq_nil_iff_forall_not_mem.mpr
    intro key member
    obtain ⟨⟨parameter, held, named⟩, gone⟩ := mem_resetKeys.mp member
    exact gone parameter (options ▸ held) named
  have set : change.setParameters = [] := by
    apply List.eq_nil_iff_forall_not_mem.mpr
    intro parameter member
    obtain ⟨new, fresh⟩ := mem_setParameters.mp member
    exact fresh (options ▸ new)
  simp [optionSettings, settingIf, options, reset, set]

theorem filterMap_setting?_actions (postgres : capabilities.family = .postgres) :
    (change.actions capabilities comments).filterMap Action.setting? =
      (change.settings capabilities).map (change.new.qualifiedName, ·) := by
  have additions : change.columnAdditions.filterMap Action.setting? = [] :=
    List.filterMap_eq_nil_iff.mpr (List.forall_mem_map.mpr fun _ _ => rfl)
  have removals : change.columnRemovals.filterMap Action.setting? = [] :=
    List.filterMap_eq_nil_iff.mpr (List.forall_mem_map.mpr fun _ _ => rfl)
  have columns (comments : Bool) : (change.altered.flatMap
      (change.columnActions comments)).filterMap Action.setting? = [] :=
    List.filterMap_eq_nil_iff.mpr
      (List.forall_mem_flatMap.mpr fun _ _ => setting?_of_mem_columnActions)
  have removed : change.removedConstraintActions.filterMap Action.setting? = [] :=
    List.filterMap_eq_nil_iff.mpr (List.forall_mem_map.mpr fun _ _ => rfl)
  have added : change.addedConstraintActions.filterMap Action.setting? = [] := by
    refine List.filterMap_eq_nil_iff.mpr (List.forall_mem_map.mpr fun named _ => ?_)
    dsimp only
    split <;> rfl
  have single {condition : Bool} {action : Action} (other : action.setting? = none) :
      (actionIf condition action).filterMap Action.setting? = [] :=
    List.filterMap_eq_nil_iff.mpr (forall_mem_actionIf.mpr fun _ => other)
  have listed (settings : List TableSetting) : (settings.map
      (Action.setTable change.new.qualifiedName)).filterMap Action.setting? =
        settings.map (change.new.qualifiedName, ·) := by
    rw [List.filterMap_map]
    exact congrFun (@List.filterMap_eq_map _ _ (change.new.qualifiedName, ·)) settings
  have options : (if change.optionsChanged then change.refusals
      ++ (change.optionSettings capabilities).map (Action.setTable change.new.qualifiedName)
    else []).filterMap Action.setting? =
      (change.optionSettings capabilities).map (change.new.qualifiedName, ·) := by
    cases changed : change.optionsChanged with
    | false =>
      rw [optionSettings_eq_nil changed]
      rfl
    | true =>
      simp only [if_true, refusals, List.filterMap_append, listed]
      rw [single rfl, single rfl, single rfl]
      rfl
  rw [actions_of_postgres postgres, tableActions]
  simp only [List.filterMap_append, additions, removals, columns, removed, added, options, listed]
  rw [single rfl, single rfl, settings, List.map_append]
  simp only [List.nil_append, List.append_nil]

/-- Whether a zone configuration names everything that it named before. -/
def KeepsZone (change : TableChange) : Prop :=
  ∀ parameter ∈ change.old.platform.zoneConfig,
    ∃ kept ∈ change.new.platform.zoneConfig, kept.key = parameter.key

theorem zone_converges_iff :
    (fun key => (change.new.heldSettings.zone key).or (change.old.heldSettings.zone key)) =
      change.new.heldSettings.zone ↔ change.KeepsZone := by
  constructor
  · intro same parameter member
    by_contra gone
    have unnamed : change.new.heldSettings.zone parameter.key = none :=
      parameterValue?_eq_none_iff.mpr fun kept listed named => gone ⟨kept, listed, named⟩
    have dropped := congrFun same parameter.key
    simp only [unnamed, Option.none_or] at dropped
    exact parameterValue?_eq_none_iff.mp dropped parameter member rfl
  · intro keeps
    funext key
    cases found : change.new.heldSettings.zone key with
    | some value => rfl
    | none =>
      rw [Option.none_or]
      apply parameterValue?_eq_none_iff.mpr
      intro parameter member named
      obtain ⟨kept, listed, same⟩ := keeps parameter member
      exact parameterValue?_eq_none_iff.mp found kept listed (same.trans named)

end TableChange

/-! ## Statements that set something -/

/-- The statement for a setting of a table. -/
def Target.settingStatement (target : Target) (table : QualifiedName) (setting : TableSetting) :
    Statement :=
  target.statementWith (.setTable table setting)
    (target.alterTableText table (target.settingText setting))

theorem Target.filter_tableSettings {target : Target} {actions : List Action}
    {statements : List Statement}
    (written : List.Forall₂ (fun action statement => target.statement action = .ok statement)
      actions statements) :
    statements.filter (·.operation == .tableSettings) =
      (actions.filterMap Action.setting?).map fun setting =>
        target.settingStatement setting.1 setting.2 := by
  induction written with
  | nil => rfl
  | @cons action statement actions statements written _ induction =>
    obtain ⟨sql, text, rfl⟩ := Target.statement_eq_ok_iff.mp written
    cases action with
    | setTable table setting =>
      cases text
      have sets : (Action.setTable table setting).setting? = some (table, setting) := rfl
      rw [List.filterMap_cons_some sets, List.map_cons, ← induction]
      exact List.filter_cons_of_pos rfl
    | refuse => cases text
    | _ =>
      rw [List.filterMap_cons_none rfl, ← induction]
      exact List.filter_cons_of_neg nofun

/-- An alteration of the Postgres family sets the storage parameters and the locality of a table to
those of its new version. The zone configuration keeps what it is not given anew, and is that of the
new version exactly if this names everything that the old one did. -/
theorem Target.alterTable_convergesSettings_iff {target : Target} {change : TableChange}
    {statements : List Statement} (postgres : target.family = .postgres)
    (locality : target.capabilities.supports .locality = true)
    (zone : target.capabilities.supports .zoneConfig = true)
    (oldDistinct : (change.old.options.parameters.map (·.key)).Nodup)
    (newDistinct : (change.new.options.parameters.map (·.key)).Nodup)
    (written : target.alterTable change = .ok statements) :
    let reached := change.old.heldSettings.afterAll (change.settings target.capabilities)
    statements.filter (·.operation == .tableSettings) =
        (change.settings target.capabilities).map
          (target.settingStatement change.new.qualifiedName) ∧
      reached.parameters = change.new.heldSettings.parameters ∧
      reached.locality = change.new.heldSettings.locality ∧
      (∀ key, reached.zone key =
        (change.new.heldSettings.zone key).or (change.old.heldSettings.zone key)) ∧
      (reached = change.new.heldSettings ↔ change.KeepsZone) := by
  have reached : change.old.heldSettings.afterAll (change.settings target.capabilities) =
      { change.new.heldSettings with
        zone := fun key =>
          (change.new.heldSettings.zone key).or (change.old.heldSettings.zone key) } := by
    rw [TableChange.settings, HeldSettings.afterAll_append,
      TableChange.afterAll_optionSettings oldDistinct newDistinct rfl,
      TableChange.afterAll_platformSettings locality zone]
    all_goals rfl
  have listed := Target.filter_tableSettings (mapM_eq_ok_iff.mp written)
  rw [TableChange.filterMap_setting?_actions postgres, List.map_map] at listed
  rw [reached, ← TableChange.zone_converges_iff]
  refine ⟨listed, rfl, rfl, fun _ => rfl, ?_⟩
  rw [HeldSettings.ext_iff]
  simp

/-! ## An example -/

namespace TableSettingsExample

def target : Target := ⟨Capabilities.cockroachDb, {}⟩

def pages (parameters : List StorageOption) (locality : Option String)
    (zoneConfig : List StorageOption) : Table where
  name := "pages"
  columns := [{ name := "id", dataType := "integer" }]
  options := { parameters }
  platform := { locality, zoneConfig }

def moved : TableChange where
  old := pages [⟨"fillfactor", "70"⟩, ⟨"ttl", "'on'"⟩] none [⟨"num_replicas", "3"⟩]
  new := pages [⟨"fillfactor", "80"⟩, ⟨"exclude_data_from_backup", "true"⟩]
    (some "REGIONAL BY ROW") [⟨"gc.ttlseconds", "600"⟩, ⟨"num_replicas", "5"⟩]

def unzoned (zoneConfig : List StorageOption) : TableChange where
  old := pages [] none [⟨"gc.ttlseconds", "600"⟩, ⟨"num_replicas", "5"⟩]
  new := pages [] none zoneConfig

end TableSettingsExample

open TableSettingsExample in
theorem alterTable_convergesSettings_pages :
    ∃ statements, target.alterTable moved = .ok statements ∧
      statements.map (·.sql) =
        ["ALTER TABLE pages RESET (ttl)",
          "ALTER TABLE pages SET (fillfactor = 80, exclude_data_from_backup = true)",
          "ALTER TABLE pages SET LOCALITY REGIONAL BY ROW",
          "ALTER TABLE pages CONFIGURE ZONE USING gc.ttlseconds = 600, num_replicas = 5"] ∧
      moved.old.heldSettings.afterAll (moved.settings target.capabilities) =
        moved.new.heldSettings := by
  have written : target.alterTable moved =
      .ok ((moved.settings target.capabilities).map (target.settingStatement ⟨none, "pages"⟩)) := by
    rfl
  have keeps : moved.KeepsZone := by
    unfold TableChange.KeepsZone
    decide +kernel
  obtain ⟨_, _, _, _, reached⟩ := Target.alterTable_convergesSettings_iff rfl (by decide +kernel)
    (by decide +kernel) (by decide +kernel) (by decide +kernel) written
  exact ⟨_, written, by decide +kernel, reached.mpr keeps⟩

open TableSettingsExample in
/-- What a zone configuration has lost stays, whether nothing is left of it or something. -/
theorem alterTable_keeps_zone_pages :
    target.alterTable (unzoned []) = .ok [] ∧
      (∃ statement, target.alterTable (unzoned [⟨"gc.ttlseconds", "300"⟩]) = .ok [statement] ∧
        statement.sql = "ALTER TABLE pages CONFIGURE ZONE USING gc.ttlseconds = 300") ∧
      ∀ zoneConfig ∈ [[], [⟨"gc.ttlseconds", "300"⟩]],
        let change := unzoned zoneConfig
        let reached := change.old.heldSettings.afterAll (change.settings target.capabilities)
        reached.zone "num_replicas" = some "5" ∧
          change.new.heldSettings.zone "num_replicas" = none ∧
          reached ≠ change.new.heldSettings := by
  refine ⟨rfl, by decide +kernel, fun zoneConfig member => ?_⟩
  have kept : ∀ zoneConfig ∈ [[], [⟨"gc.ttlseconds", "300"⟩]],
      ((unzoned zoneConfig).old.heldSettings.afterAll
        ((unzoned zoneConfig).settings target.capabilities)).zone "num_replicas" = some "5" ∧
      (unzoned zoneConfig).new.heldSettings.zone "num_replicas" = none := by
    decide +kernel
  obtain ⟨stays, gone⟩ := kept zoneConfig member
  refine ⟨stays, gone, fun same => ?_⟩
  rw [same, gone] at stays
  cases stays

end SchemaDdl
