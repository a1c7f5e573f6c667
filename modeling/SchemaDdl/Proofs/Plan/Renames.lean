import SchemaDdl.Proofs.Number.Unit
import SchemaDdl.Proofs.Plan.Objects
import SchemaDdl.Proofs.Text.EditDistance

/-!
# Possible renames

The similarity of two names is a number from zero to one. Candidates are ranked by it, and by their
places where they are equally alike. One after another is taken unless one of its names is taken, so
that what keeps a candidate out always comes before it.
-/

namespace SchemaDdl

/-! ## Similarity -/

theorem inUnit_similarity (left right : String) : (similarity left right).InUnit := by
  unfold similarity
  dsimp only
  split
  case isTrue => exact Binary64.inUnit_ofRatio Nat.one_ne_zero (Nat.le_refl 1)
  case isFalse nonempty =>
    refine (Binary64.inUnit_ofRatio nonempty ?_).complement
    simpa only [String.length_toList] using Text.editDistance_le_max left.toList right.toList

theorem inUnit_renameThreshold : renameThreshold.InUnit :=
  Binary64.inUnit_ofRatio (by decide) (by decide)

open Text in
/-- The edit distance of two texts follows the recurrence over their last characters, and is the
least number of edits that lead from one to the other. So it is zero for equal texts alone, is
symmetric, satisfies the triangle inequality and is no larger than the longer text, and the
similarity of two names lies between zero and one. -/
theorem editDistance_isLeastEdits :
    FollowsRecurrence editDistance ∧
    (∀ source target,
      IsLeast { count | Edits count source target } (editDistance source target)) ∧
    (∀ source target, editDistance source target = 0 ↔ source = target) ∧
    (∀ source target, editDistance source target = editDistance target source) ∧
    (∀ source middle target, editDistance source target ≤
      editDistance source middle + editDistance middle target) ∧
    (∀ source target, editDistance source target ≤ max source.length target.length) ∧
    ∀ left right, (similarity left right).isFinite = true ∧
      0 ≤ (similarity left right).value ∧ (similarity left right).value ≤ 1 :=
  ⟨followsRecurrence_editDistance, isLeast_editDistance, fun _ _ => editDistance_eq_zero_iff,
    editDistance_comm, editDistance_triangle, editDistance_le_max,
    fun left right => ⟨(inUnit_similarity left right).isFinite,
      (inUnit_similarity left right).value_mem⟩⟩

/-! ## Candidates one after another -/

namespace Binary64

theorem totalLE_trans {left middle right : Binary64} (first : left.totalLE middle = true)
    (second : middle.totalLE right = true) : left.totalLE right = true :=
  decide_eq_true (Int.le_trans (of_decide_eq_true first) (of_decide_eq_true second))

theorem totalLE_total (left right : Binary64) :
    (left.totalLE right || right.totalLE left) = true := by
  simp only [totalLE, Bool.or_eq_true, decide_eq_true_eq]
  exact Int.le_total _ _

end Binary64

namespace Rename

def SharesName (left right : Rename) : Prop :=
  left.old = right.old ∨ left.new = right.new

/-- Whether a candidate comes before another one, each with its place among all candidates: it is at
least as much alike, and earlier unless it is more alike. -/
def Outranks (left right : Rename × Nat) : Prop :=
  right.1.similarity.totalLE left.1.similarity = true ∧
    (left.1.similarity.totalLE right.1.similarity = true → left.2 < right.2)

/-- Whether some of all candidates, each with its place, are a one-to-one matching in the order of
rank, and each of the others shares a name with one of them that outranks it. -/
structure IsGreedy (all taken : List (Rename × Nat)) : Prop where
  chosen : ∀ candidate ∈ taken, candidate ∈ all
  ranked : taken.Pairwise Outranks
  oldOnce : (taken.map (·.1.old)).Nodup
  newOnce : (taken.map (·.1.new)).Nodup
  blocked : ∀ candidate ∈ all, candidate ∉ taken →
    ∃ other ∈ taken, SharesName other.1 candidate.1 ∧ Outranks other candidate

/-- Whether some renames are what a greedy one-to-one matching takes of all candidates. -/
def IsGreedyMatching (candidates renames : List Rename) : Prop :=
  ∃ taken, taken.map Prod.fst = renames ∧ IsGreedy candidates.zipIdx taken

theorem conflicts_iff {left right : Rename} :
    left.conflicts right = true ↔ SharesName right left := by
  rw [conflicts, SharesName, Bool.or_eq_true, beq_iff_eq, beq_iff_eq, @eq_comm _ left.old,
    @eq_comm _ left.new]

def acceptNumbered (taken : List (Rename × Nat)) (candidate : Rename × Nat) :
    List (Rename × Nat) :=
  if taken.any fun other => candidate.1.conflicts other.1 then taken else taken ++ [candidate]

theorem map_fst_acceptNumbered (taken : List (Rename × Nat)) (candidate : Rename × Nat) :
    (acceptNumbered taken candidate).map Prod.fst = accept (taken.map Prod.fst) candidate.1 := by
  have same : (taken.map Prod.fst).any candidate.1.conflicts =
      taken.any fun other => candidate.1.conflicts other.1 := by
    rw [List.any_map]
    rfl
  rw [acceptNumbered, accept, same]
  split
  · rfl
  · rw [List.map_append, List.map_singleton]

theorem nodup_map_concat {taken : List (Rename × Nat)} {candidate : Rename × Nat}
    {name : Rename × Nat → String} (once : (taken.map name).Nodup)
    (fresh : ∀ other ∈ taken, name other ≠ name candidate) :
    ((taken ++ [candidate]).map name).Nodup := by
  rw [List.map_append, List.map_singleton]
  refine once.append (List.nodup_singleton _) ?_
  intro shown member new
  rcases List.mem_map.mp member with ⟨other, otherMember, rfl⟩
  exact fresh other otherMember (List.mem_singleton.mp new)

namespace IsGreedy

variable {before taken : List (Rename × Nat)} {candidate : Rename × Nat}

theorem nil : IsGreedy [] [] :=
  ⟨nofun, .nil, .nil, .nil, nofun⟩

theorem refuse (greedy : IsGreedy before taken)
    (last : ∀ earlier ∈ before, Outranks earlier candidate) {other : Rename × Nat}
    (held : other ∈ taken) (shared : SharesName other.1 candidate.1) :
    IsGreedy (before ++ [candidate]) taken := by
  refine ⟨fun kept member => List.mem_append_left _ (greedy.chosen kept member), greedy.ranked,
    greedy.oldOnce, greedy.newOnce, fun item member out => ?_⟩
  rcases List.mem_append.mp member with earlier | new
  · exact greedy.blocked item earlier out
  · rw [List.mem_singleton.mp new]
    exact ⟨other, held, shared, last other (greedy.chosen other held)⟩

theorem take (greedy : IsGreedy before taken)
    (last : ∀ earlier ∈ before, Outranks earlier candidate)
    (free : ∀ other ∈ taken, ¬SharesName other.1 candidate.1) :
    IsGreedy (before ++ [candidate]) (taken ++ [candidate]) := by
  refine ⟨?_, ?_, ?_, ?_, ?_⟩
  · intro kept member
    rcases List.mem_append.mp member with earlier | new
    · exact List.mem_append_left _ (greedy.chosen kept earlier)
    · exact List.mem_append_right _ new
  · refine List.pairwise_append.mpr ⟨greedy.ranked, List.pairwise_singleton .., ?_⟩
    intro earlier member other new
    rw [List.mem_singleton.mp new]
    exact last earlier (greedy.chosen earlier member)
  · exact nodup_map_concat greedy.oldOnce fun other member same => free other member (.inl same)
  · exact nodup_map_concat greedy.newOnce fun other member same => free other member (.inr same)
  · intro item member out
    rcases List.mem_append.mp member with earlier | new
    · have refused : item ∉ taken := fun kept => out (List.mem_append_left _ kept)
      rcases greedy.blocked item earlier refused with ⟨other, otherMember, blocks⟩
      exact ⟨other, List.mem_append_left _ otherMember, blocks⟩
    · exact absurd (List.mem_append_right _ new) out

theorem accept (greedy : IsGreedy before taken)
    (last : ∀ earlier ∈ before, Outranks earlier candidate) :
    IsGreedy (before ++ [candidate]) (acceptNumbered taken candidate) := by
  unfold acceptNumbered
  split
  case isTrue conflict =>
    rcases List.any_eq_true.mp conflict with ⟨other, held, shared⟩
    exact greedy.refuse last held (conflicts_iff.mp shared)
  case isFalse free =>
    refine greedy.take last fun other member shared => free ?_
    exact List.any_eq_true.mpr ⟨other, member, conflicts_iff.mpr shared⟩

theorem foldl_accept (greedy : IsGreedy before taken) {candidates : List (Rename × Nat)}
    (ranked : (before ++ candidates).Pairwise Outranks) :
    IsGreedy (before ++ candidates) (candidates.foldl acceptNumbered taken) := by
  induction candidates generalizing before taken with
  | nil => rwa [List.append_nil]
  | cons candidate candidates induction =>
      have last : ∀ earlier ∈ before, Outranks earlier candidate := fun earlier member =>
        (List.pairwise_append.mp ranked).2.2 earlier member candidate List.mem_cons_self
      rw [List.append_cons] at ranked ⊢
      exact induction (greedy.accept last) ranked

end IsGreedy

def atLeast (left right : Rename) : Bool :=
  right.similarity.totalLE left.similarity

theorem outranks_of_zipIdxLE {left right : Rename × Nat}
    (ordered : List.zipIdxLE atLeast left right = true) (apart : left.2 ≠ right.2) :
    Outranks left right := by
  unfold List.zipIdxLE at ordered
  split at ordered
  case isFalse => cases ordered
  case isTrue above =>
    refine ⟨above, fun below => ?_⟩
    rw [if_pos (show atLeast right.1 left.1 = true from below), decide_eq_true_eq] at ordered
    exact Nat.lt_of_le_of_ne ordered apart

theorem exists_ranking (candidates : List Rename) :
    ∃ ranking : List (Rename × Nat), ranking.Perm candidates.zipIdx ∧ ranking.Pairwise Outranks ∧
      ranking.map Prod.fst = candidates.mergeSort atLeast := by
  have perm := List.mergeSort_perm candidates.zipIdx (List.zipIdxLE atLeast)
  have sorted := List.pairwise_mergeSort
    (@List.zipIdxLE_trans _ atLeast fun _ _ _ first second =>
      Binary64.totalLE_trans second first)
    (List.zipIdxLE_total fun _ _ => Binary64.totalLE_total _ _) candidates.zipIdx
  have places : ((candidates.zipIdx.mergeSort (List.zipIdxLE atLeast)).map Prod.snd).Nodup :=
    (perm.map Prod.snd).nodup_iff.mpr (List.nodup_zipIdx_map_snd candidates)
  exact ⟨candidates.zipIdx.mergeSort (List.zipIdxLE atLeast), perm,
    sorted.imp₂ (fun _ _ => outranks_of_zipIdxLE) (List.pairwise_map.mp places),
    List.mergeSort_zipIdx⟩

theorem isGreedyMatching_bestPairs (candidates : List Rename) :
    IsGreedyMatching candidates (bestPairs candidates) := by
  rcases exists_ranking candidates with ⟨ranking, perm, ranked, sorted⟩
  have greedy : IsGreedy ranking (ranking.foldl acceptNumbered []) :=
    IsGreedy.nil.foldl_accept ranked
  refine ⟨ranking.foldl acceptNumbered [], ?_, ?_⟩
  · show _ = (candidates.mergeSort atLeast).foldl Rename.accept []
    rw [← sorted, List.foldl_map]
    exact (List.foldl_hom (List.map Prod.fst) fun taken candidate =>
      (map_fst_acceptNumbered taken candidate).symm).symm
  · exact { greedy with
      chosen := fun candidate member => perm.mem_iff.mp (greedy.chosen candidate member)
      blocked := fun candidate member => greedy.blocked candidate (perm.mem_iff.mpr member) }

end Rename

/-! ## Things under another name -/

/-- How removed and added things of a kind are compared, to find those that may be one thing under
another name. -/
structure Likeness (α : Type) where
  /-- The name that a warning shows. -/
  shown : α → String
  /-- The name that is compared. -/
  compared : α → String
  /-- Whether all but the names lets one thing be the other. -/
  fits : α → α → Bool

namespace Likeness

variable {α : Type} (likeness : Likeness α)

def similarity (old new : α) : Binary64 :=
  SchemaDdl.similarity (likeness.compared old) (likeness.compared new)

def rename (old new : α) : Rename :=
  ⟨likeness.shown old, likeness.shown new, likeness.similarity old new⟩

def MayBecome (old new : α) : Prop :=
  likeness.fits old new = true ∧ renameThreshold.value ≤ (likeness.similarity old new).value

def candidates (removed added : List α) : List Rename :=
  removed.flatMap fun old => added.filterMap fun new =>
    if likeness.fits old new then
      Rename.between? (likeness.compared old) (likeness.compared new) (likeness.shown old)
        (likeness.shown new)
    else
      none

/-- Whether some renames pair off removed and added things: no name is in two of them, the most
alike come first, and wherever a removed thing may be an added one, a rename that is at least as
much alike has one of their names. -/
structure PairsOff (removed added : List α) (renames : List Rename) : Prop where
  given : ∀ rename ∈ renames, ∃ old ∈ removed, ∃ new ∈ added,
    likeness.MayBecome old new ∧ rename = likeness.rename old new
  oldOnce : (renames.map (·.old)).Nodup
  newOnce : (renames.map (·.new)).Nodup
  descending : renames.Pairwise fun first second =>
    second.similarity.value ≤ first.similarity.value
  unmissed : ∀ old ∈ removed, ∀ new ∈ added, likeness.MayBecome old new →
    ∃ rename ∈ renames, (rename.old = likeness.shown old ∨ rename.new = likeness.shown new) ∧
      (likeness.similarity old new).value ≤ rename.similarity.value

variable {likeness} {removed added : List α}

theorem inUnit_of_given {rename : Rename}
    (given : ∃ old ∈ removed, ∃ new ∈ added,
      likeness.MayBecome old new ∧ rename = likeness.rename old new) :
    rename.similarity.InUnit := by
  rcases given with ⟨old, _, new, _, _, rfl⟩
  exact inUnit_similarity _ _

theorem mem_candidates {rename : Rename} :
    rename ∈ likeness.candidates removed added ↔
      ∃ old ∈ removed, ∃ new ∈ added,
        likeness.MayBecome old new ∧ rename = likeness.rename old new := by
  have pair (old new : α) :
      (if likeness.fits old new then
        Rename.between? (likeness.compared old) (likeness.compared new) (likeness.shown old)
          (likeness.shown new)
      else none) = some rename ↔
        likeness.MayBecome old new ∧ rename = likeness.rename old new := by
    have enough : renameThreshold.totalLE (likeness.similarity old new) = true ↔
        renameThreshold.value ≤ (likeness.similarity old new).value :=
      inUnit_renameThreshold.totalLE_iff (inUnit_similarity _ _)
    rw [MayBecome, ← enough]
    simp only [Rename.between?, Likeness.rename, Likeness.similarity,
      Option.ite_none_right_eq_some, Option.some.injEq, and_assoc, @eq_comm _ rename]
  simp only [candidates, List.mem_flatMap, List.mem_filterMap, pair]

theorem pairsOff_of_isGreedyMatching {renames : List Rename}
    (matching : Rename.IsGreedyMatching (likeness.candidates removed added) renames) :
    likeness.PairsOff removed added renames := by
  rcases matching with ⟨taken, rfl, greedy⟩
  have given : ∀ candidate ∈ taken, ∃ old ∈ removed, ∃ new ∈ added,
      likeness.MayBecome old new ∧ candidate.1 = likeness.rename old new := by
    intro candidate member
    have placed := List.mem_zipIdx_iff_getElem?.mp (greedy.chosen candidate member)
    exact mem_candidates.mp (List.mem_of_getElem? placed)
  refine ⟨List.forall_mem_map.mpr given, ?_, ?_, ?_, ?_⟩
  · rw [List.map_map]
    exact greedy.oldOnce
  · rw [List.map_map]
    exact greedy.newOnce
  · refine List.pairwise_map.mpr (greedy.ranked.imp_of_mem ?_)
    intro first second firstMember secondMember outranks
    have unit := inUnit_of_given (given second secondMember)
    exact (unit.totalLE_iff (inUnit_of_given (given first firstMember))).mp outranks.1
  · intro old oldMember new newMember may
    have candidate : likeness.rename old new ∈ likeness.candidates removed added :=
      mem_candidates.mpr ⟨old, oldMember, new, newMember, may, rfl⟩
    rcases List.mem_iff_getElem?.mp candidate with ⟨place, found⟩
    have placed : (likeness.rename old new, place) ∈ (likeness.candidates removed added).zipIdx :=
      List.mem_zipIdx_iff_getElem?.mpr found
    -- A candidate that was taken is a rename with both names itself.
    by_cases kept : (likeness.rename old new, place) ∈ taken
    · exact ⟨likeness.rename old new, List.mem_map.mpr ⟨_, kept, rfl⟩, .inl rfl, le_refl _⟩
    · rcases greedy.blocked _ placed kept with ⟨other, otherMember, shared, outranks⟩
      have unit : (likeness.similarity old new).InUnit := inUnit_similarity _ _
      exact ⟨other.1, List.mem_map_of_mem otherMember, shared,
        (unit.totalLE_iff (inUnit_of_given (given other otherMember))).mp outranks.1⟩

end Likeness

def columnLikeness : Likeness Column :=
  ⟨Column.name, Column.name, fun removed added => removed.canonicalType == added.canonicalType⟩

def tableLikeness : Likeness Table :=
  ⟨fun table => table.qualifiedName.text, Table.name, SchemaChange.sameShape⟩

/-! ## Warnings of a plan -/

def PlanWarning.tableRename? : PlanWarning → Option Rename
  | .tableRename tables => some tables
  | _ => none

def PlanWarning.columnRename? : PlanWarning → Option (QualifiedName × Rename)
  | .columnRename table columns => some (table, columns)
  | _ => none

namespace SchemaChange

variable {change : SchemaChange} {β : Type} {pick : PlanWarning → Option β}

theorem filterMap_warnings (manual : ∀ object reason, pick (.manualMigration object reason) = none)
    (cycle : ∀ tables, pick (.dependencyCycle tables) = none) :
    change.warnings.filterMap pick =
      (change.tableRenames.map PlanWarning.tableRename).filterMap pick ++
        (change.keptTables.flatMap (·.renameWarnings)).filterMap pick := by
  have standing {α : Type} {objects : List α} {standing : α → Standing α} {kind : ObjectKind}
      {label : α → String} :
      (objects.flatMap fun object => (standing object).warnings kind (label object)).filterMap
        pick = [] := by
    refine List.filterMap_eq_nil_iff.mpr fun warning member => ?_
    rcases of_mem_standingWarnings member with ⟨object, _, rfl⟩
    exact manual _ _
  have enums : change.enumWarnings.filterMap pick = [] := by
    refine List.filterMap_eq_nil_iff.mpr fun warning member => ?_
    rcases of_mem_enumWarnings member with ⟨enumType, _, rfl⟩
    exact manual _ _
  have cycles : change.cycleWarnings.filterMap pick = [] := by
    unfold cycleWarnings
    split
    · rfl
    · simp [cycle]
  have removals : change.removalWarnings.filterMap pick = [] := by
    simp [removalWarnings, manual]
  simp only [warnings, sequenceWarnings, changeWarnings, List.filterMap_append, enums, standing,
    cycles, removals, List.nil_append, List.append_nil]

end SchemaChange

namespace MigrationPlan

/-- The renames of tables that a plan warns of. -/
def tableRenames (plan : MigrationPlan) : List Rename :=
  plan.warnings.filterMap PlanWarning.tableRename?

/-- The renames of columns that a plan warns of, with their tables. -/
def columnRenames (plan : MigrationPlan) : List (QualifiedName × Rename) :=
  plan.warnings.filterMap PlanWarning.columnRename?

end MigrationPlan

namespace Target

variable {target : Target} {old new : Schema} {plan : MigrationPlan}

theorem tableRenames_of_plan (planned : target.plan old new = .ok plan) :
    plan.tableRenames = (target.schemaChange old new).tableRenames := by
  rw [MigrationPlan.tableRenames, ← (plan_eq_ok_iff.mp planned).2,
    SchemaChange.filterMap_warnings (fun _ _ => rfl) fun _ => rfl]
  simp [PlanWarning.tableRename?, TableChange.renameWarnings, List.filterMap_flatMap,
    Function.comp_def]

theorem columnRenames_of_plan (planned : target.plan old new = .ok plan) :
    plan.columnRenames = (target.schemaChange old new).keptTables.flatMap fun change =>
      change.columnRenames.map (change.new.qualifiedName, ·) := by
  rw [MigrationPlan.columnRenames, ← (plan_eq_ok_iff.mp planned).2,
    SchemaChange.filterMap_warnings (fun _ _ => rfl) fun _ => rfl]
  simp [PlanWarning.columnRename?, TableChange.renameWarnings, List.filterMap_flatMap,
    Function.comp_def]

/-- The best pairs of any candidates are a greedy one-to-one matching. So the warnings of a plan
about tables pair off the tables that are dropped and created, and its warnings about columns are,
table by table in the order of the new schema, those that pair off the columns that the table loses
and gains. -/
theorem plan_pairsRenames (target : Target) :
    (∀ candidates, Rename.IsGreedyMatching candidates (Rename.bestPairs candidates)) ∧
    ∀ old new plan, target.plan old new = .ok plan →
      tableLikeness.PairsOff (target.schemaChange old new).droppedTables
        (target.schemaChange old new).createdTables plan.tableRenames ∧
      ∃ renames : TableChange → List Rename,
        plan.columnRenames = ((target.schemaChange old new).keptTables.flatMap fun change =>
          (renames change).map (change.new.qualifiedName, ·)) ∧
        ∀ change ∈ (target.schemaChange old new).keptTables,
          columnLikeness.PairsOff change.removed change.added (renames change) := by
  refine ⟨Rename.isGreedyMatching_bestPairs, fun old new plan planned => ⟨?_, ?_⟩⟩
  · rw [tableRenames_of_plan planned]
    exact Likeness.pairsOff_of_isGreedyMatching (Rename.isGreedyMatching_bestPairs _)
  · refine ⟨TableChange.columnRenames, columnRenames_of_plan planned, fun change _ => ?_⟩
    exact Likeness.pairsOff_of_isGreedyMatching (Rename.isGreedyMatching_bestPairs _)

end Target

namespace RenameExample

def column (name : String) : Column :=
  { name, dataType := "text" }

def pages (columns : List String) : Table :=
  { name := "pages", columns := columns.map column }

def drafts (name : String) : Table :=
  { name, columns := [column "body"] }

def old : Schema := { tables := [pages ["nam", "name"], drafts "drafts"] }

def new : Schema := { tables := [pages ["names"], drafts "draft"] }

end RenameExample

open RenameExample in
/-- Two columns are gone that resemble the one that is new. -/
theorem Target.plan_pairsRenames_pages :
    ∃ plan, Target.plan ⟨Capabilities.postgres, {}⟩ old new = .ok plan ∧
      tableLikeness.PairsOff [drafts "drafts"] [drafts "draft"] plan.tableRenames ∧
      ∃ renames, plan.columnRenames = renames.map (.plain "pages", ·) ∧
        columnLikeness.PairsOff [column "nam", column "name"] [column "names"] renames := by
  have succeeds : ∃ plan, Target.plan ⟨Capabilities.postgres, {}⟩ old new = .ok plan := by
    decide +kernel
  rcases succeeds with ⟨plan, planned⟩
  have kept : (Target.schemaChange ⟨Capabilities.postgres, {}⟩ old new).keptTables =
      [⟨pages ["nam", "name"], pages ["names"]⟩] := rfl
  rcases (Target.plan_pairsRenames ⟨Capabilities.postgres, {}⟩).2 old new plan planned with
    ⟨tables, renames, columns, pairs⟩
  rw [kept] at columns pairs
  refine ⟨plan, planned, tables, _, ?_, pairs _ List.mem_cons_self⟩
  rw [columns, List.flatMap_singleton]
  rfl

end SchemaDdl
