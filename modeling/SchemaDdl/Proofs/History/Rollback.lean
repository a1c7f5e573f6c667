import Mathlib.Algebra.Group.Nat.Defs
import Mathlib.Data.List.Nodup
import Mathlib.Data.List.Perm.Basic
import SchemaDdl.History.Record
import SchemaDdl.Proofs.Precedence

/-!
# Rolling back the last batch

A batch is rolled back by removing its records, the newest first, each by its name. A name stands
for the first of its records, so that the last batch is what goes exactly when, of the records of
one name, those of the last batch come before the others. It is always so where names are told
apart, as the table of records demands, and names stay apart while only new ones are recorded.
-/

namespace SchemaDdl

namespace MigrationHistory

variable {history : MigrationHistory} {record : MigrationRecord} {records : List MigrationRecord}
  {names : List String}

/-! ## Calls -/

/-- A call that changes a history. -/
inductive Call where
  | record (record : MigrationRecord)
  | remove (name : String)
deriving DecidableEq, Repr

/-- The history after a call. -/
def after (history : MigrationHistory) : Call → MigrationHistory
  | .record record => history.record record
  | .remove name => history.remove name

/-- The history after calls, one after another. -/
def afterAll (history : MigrationHistory) (calls : List Call) : MigrationHistory :=
  calls.foldl after history

/-- Whether calls record a name only while it is not applied. -/
def RecordsAfresh (history : MigrationHistory) (calls : List Call) : Prop :=
  EachAfter (fun before call => ∀ record, call = .record record →
    (history.afterAll before).isApplied record.name = false) calls

/-- Whether no two records have one name. -/
def NamesApart (history : MigrationHistory) : Prop :=
  (history.records.map (·.name)).Nodup

theorem isApplied_eq_false_iff {name : String} :
    history.isApplied name = false ↔ name ∉ history.records.map (·.name) := by
  rw [isApplied, get?, Option.isSome_eq_false_iff, Option.isNone_iff_eq_none, List.find?_eq_none,
    List.mem_map]
  simp

theorem NamesApart.after {call : Call} (apart : history.NamesApart)
    (fresh : ∀ record, call = .record record → history.isApplied record.name = false) :
    (history.after call).NamesApart := by
  cases call with
  | record record =>
      have absent := isApplied_eq_false_iff.mp (fresh record rfl)
      have pushed : (history.record record).records.map (·.name) =
          history.records.map (·.name) ++ [record.name] := List.map_append
      rw [NamesApart, MigrationHistory.after, pushed, List.nodup_append]
      exact ⟨apart, List.nodup_singleton _, by simpa using absent⟩
  | remove name => exact apart.sublist (List.eraseP_sublist.map _)

theorem NamesApart.afterAll {calls : List Call} (apart : history.NamesApart)
    (afresh : history.RecordsAfresh calls) : (history.afterAll calls).NamesApart := by
  induction calls generalizing history with
  | nil => exact apart
  | cons call calls induction =>
      rcases eachAfter_cons.mp afresh with ⟨fresh, rest⟩
      exact induction (apart.after fresh) rest

/-! ## Numbers of batches -/

theorem lastBatchNumber?_eq_some_iff {batch : Nat} :
    history.lastBatchNumber? = some batch ↔
      (∃ record ∈ history.records, record.batch = batch) ∧
        ∀ record ∈ history.records, record.batch ≤ batch := by
  rw [lastBatchNumber?, List.max?_eq_some_iff, List.forall_mem_map, List.mem_map]

theorem batch_lt_nextBatch (small : ∀ record ∈ history.records, record.batch < 2 ^ 32 - 1)
    (member : record ∈ history.records) : record.batch < history.nextBatch := by
  rw [nextBatch]
  cases last : history.lastBatchNumber? with
  | none =>
      rw [lastBatchNumber?, List.max?_eq_none_iff, List.map_eq_nil_iff] at last
      rw [last] at member
      cases member
  | some batch =>
      rcases lastBatchNumber?_eq_some_iff.mp last with ⟨⟨latest, latestMember, rfl⟩, largest⟩
      have room : latest.batch + 1 < UInt32.size := Nat.add_lt_of_lt_sub (small latest latestMember)
      have noLarger := largest record member
      rw [Option.getD_some, Nat.mod_eq_of_lt room]
      omega

def isLast (history : MigrationHistory) (record : MigrationRecord) : Bool :=
  history.lastBatchNumber? == some record.batch

/-- The records of batches with a smaller number than the last. -/
def priorRecords (history : MigrationHistory) : List MigrationRecord :=
  history.records.filter fun record => history.records.any (record.batch < ·.batch)

theorem lastBatch_eq_filter :
    history.lastBatch = history.records.reverse.filter history.isLast := by
  unfold lastBatch isLast
  cases history.lastBatchNumber? with
  | none => exact (List.filter_eq_nil_iff.mpr fun record _ => Bool.false_ne_true).symm
  | some batch => exact List.filter_congr fun record _ => BEq.comm

theorem mem_lastBatch : record ∈ history.lastBatch ↔
    record ∈ history.records ∧ history.isLast record = true := by
  rw [lastBatch_eq_filter, List.mem_filter, List.mem_reverse]

theorem priorRecords_eq_filter :
    history.priorRecords = history.records.filter (!history.isLast ·) := by
  refine List.filter_congr fun record member => ?_
  rw [Bool.eq_iff_iff, List.any_eq_true, Bool.not_eq_true', isLast, beq_eq_false_iff_ne, ne_eq,
    lastBatchNumber?_eq_some_iff]
  simp only [decide_eq_true_eq]
  constructor
  · rintro ⟨later, laterMember, larger⟩ largest
    exact absurd (largest.2 later laterMember) (Nat.not_le_of_lt larger)
  · intro smaller
    by_contra none
    refine smaller ⟨⟨record, member, rfl⟩, fun other among => ?_⟩
    exact Nat.not_lt.mp fun larger => none ⟨other, among, larger⟩

/-! ## Removing several names -/

def removeAll (history : MigrationHistory) (names : List String) : MigrationHistory :=
  names.foldl remove history

theorem records_removeAll_cons :
    (removeAll ⟨record :: records⟩ names).records =
      if record.name ∈ names then (removeAll ⟨records⟩ (names.erase record.name)).records
      else record :: (removeAll ⟨records⟩ names).records := by
  induction names generalizing records with
  | nil => rfl
  | cons name names induction =>
      by_cases own : record.name = name
      · have gone : remove ⟨record :: records⟩ name = ⟨records⟩ :=
          congrArg mk (List.eraseP_cons_of_pos (by simpa using own))
        rw [removeAll, List.foldl_cons, gone, ← own, if_pos List.mem_cons_self,
          List.erase_cons_head]
        rfl
      · have kept : remove ⟨record :: records⟩ name = ⟨record :: (remove ⟨records⟩ name).records⟩ :=
          congrArg mk (List.eraseP_cons_of_neg (by simpa using own))
        rw [removeAll, List.foldl_cons, kept]
        refine (@induction (remove ⟨records⟩ name).records).trans ?_
        simp only [List.mem_cons, own, false_or]
        split
        · rw [List.erase_cons_tail (by simpa using Ne.symm own)]
          rfl
        · rfl

theorem countP_le_countP_eraseP {α : Type} (counted erased : α → Bool) (items : List α) :
    items.countP counted ≤ (items.eraseP erased).countP counted + 1 := by
  rcases List.exists_or_eq_self_of_eraseP erased items with
    same | ⟨item, front, back, _, _, rfl, equal⟩
  · rw [same]
    exact Nat.le_succ _
  · rw [equal, List.countP_append, List.countP_append, List.countP_cons]
    split <;> omega

theorem countP_le_countP_removeAll (history : MigrationHistory) (names : List String)
    (counted : MigrationRecord → Bool) :
    history.records.countP counted ≤
      (history.removeAll names).records.countP counted + names.length := by
  induction names generalizing history with
  | nil => exact Nat.le_refl _
  | cons name names induction =>
      have first := countP_le_countP_eraseP counted (·.name == name) history.records
      have rest := induction (history.remove name)
      have parted : history.removeAll (name :: names) = (history.remove name).removeAll names := rfl
      rw [parted, List.length_cons]
      have same : (history.remove name).records = history.records.eraseP (·.name == name) := rfl
      rw [same] at rest
      omega

/-- The names of chosen records take these records exactly when, of the records of one name, the
chosen ones come first. -/
theorem records_removeAll_eq_filter_iff {chosen : MigrationRecord → Bool}
    (listed : names.Perm ((records.filter chosen).map (·.name))) :
    (removeAll ⟨records⟩ names).records = records.filter (!chosen ·) ↔
      records.Pairwise fun earlier later =>
        earlier.name = later.name → chosen later = true → chosen earlier = true := by
  induction records generalizing names with
  | nil =>
      rw [List.filter_nil, List.map_nil, List.perm_nil] at listed
      subst listed
      exact iff_of_true rfl .nil
  | cons record records induction =>
      rw [records_removeAll_cons, List.pairwise_cons]
      cases choice : chosen record with
      | true =>
          rw [List.filter_cons_of_pos choice, List.map_cons] at listed
          have rest := (List.cons_perm_iff_perm_erase.mp listed.symm).2.symm
          rw [if_pos (listed.mem_iff.mpr List.mem_cons_self),
            List.filter_cons_of_neg (by simp [choice]), induction rest]
          exact (and_iff_right fun _ _ _ _ => rfl).symm
      | false =>
          rw [List.filter_cons_of_neg (by simp [choice])] at listed
          rw [List.filter_cons_of_pos (by simp [choice])]
          by_cases named : record.name ∈ names
          · -- The record goes in place of a chosen one, of which some is left then.
            rw [if_pos named]
            refine iff_of_false (fun equal => ?_) fun leads => ?_
            · have left := countP_le_countP_removeAll ⟨records⟩ (names.erase record.name) chosen
              have none : (record :: records.filter (!chosen ·)).countP chosen = 0 := by
                simp [List.countP_eq_zero, choice]
              have length : names.length = records.countP chosen := by
                rw [listed.length_eq, List.length_map, List.countP_eq_length_filter]
              have shorter := List.length_erase_of_mem named
              have nonempty := List.length_pos_of_mem named
              rw [equal, none] at left
              dsimp only at left
              omega
            · rcases List.mem_map.mp (listed.mem_iff.mp named) with ⟨later, member, same⟩
              rcases List.mem_filter.mp member with ⟨among, later⟩
              exact absurd (leads.1 _ among same.symm later) (by simp)
          · rw [if_neg named, List.cons_inj_right, induction listed]
            refine (and_iff_right fun later among same later' => ?_).symm
            exact absurd (listed.mem_iff.mpr (List.mem_map.mpr
              ⟨later, List.mem_filter.mpr ⟨among, later'⟩, same.symm⟩)) named

/-! ## Rolling back -/

def rollback (history : MigrationHistory) : MigrationHistory :=
  history.removeAll (history.lastBatch.map (·.name))

/-- Whether, of the records of one name, those of the last batch come before the others. -/
def LastBatchLeads (history : MigrationHistory) : Prop :=
  history.records.Pairwise fun earlier later =>
    earlier.name = later.name → later ∈ history.lastBatch → earlier ∈ history.lastBatch

theorem records_rollback_iff :
    history.rollback.records = history.priorRecords ↔ history.LastBatchLeads := by
  have listed : (history.lastBatch.map (·.name)).Perm
      ((history.records.filter history.isLast).map (·.name)) := by
    rw [lastBatch_eq_filter]
    exact ((List.reverse_perm _).filter _).map _
  rw [rollback, priorRecords_eq_filter, records_removeAll_eq_filter_iff listed]
  refine List.Pairwise.iff_of_mem fun {earlier later} among alsoAmong => ?_
  rw [mem_lastBatch, mem_lastBatch, and_iff_right among, and_iff_right alsoAmong]

theorem NamesApart.lastBatchLeads (apart : history.NamesApart) : history.LastBatchLeads := by
  refine (List.pairwise_map.mp apart).imp ?_
  intro earlier later apart same
  exact absurd same apart

/-- Whatever calls have made a history, the next number is larger than that of every batch while
these leave room for one more. A rollback leaves exactly the records of smaller numbers when, of the
records of one name, those of the last batch come first; it is so where calls never record a name
that is applied. -/
theorem rollback_afterAll_iff (initial : List MigrationRecord) (calls : List Call) :
    let history := (mk initial).afterAll calls
    ((∀ record ∈ history.records, record.batch < 2 ^ 32 - 1) →
        ∀ record ∈ history.records, record.batch < history.nextBatch) ∧
      (history.rollback.records = history.priorRecords ↔ history.LastBatchLeads) ∧
      ((mk initial).NamesApart → (mk initial).RecordsAfresh calls → history.LastBatchLeads) := by
  intro history
  exact ⟨fun small _ => batch_lt_nextBatch small, records_rollback_iff,
    fun apart afresh => (apart.afterAll afresh).lastBatchLeads⟩

namespace RollbackExample

def noon : Instant :=
  ⟨⟨2026, 1, 2⟩, 12, 0, 0, 0⟩

/-- A name that was recorded in the first batch. -/
def first : MigrationRecord :=
  ⟨"add_pages", "ab", 1, noon⟩

def again : MigrationRecord :=
  ⟨"add_pages", "cd", 2, noon⟩

/-- Another name in the second batch. -/
def second : MigrationRecord :=
  ⟨"add_labels", "ef", 2, noon⟩

/-- A third name, which takes part in the second batch and is taken back at once. -/
def calls : List Call :=
  [.record second, .record ⟨"add_notes", "01", 2, noon⟩, .remove "add_notes"]

theorem recordsAfresh_calls : (mk [first]).RecordsAfresh calls := by
  refine eachAfter_cons.mpr ⟨?_, eachAfter_cons.mpr ⟨?_, eachAfter_singleton.mpr nofun⟩⟩
  · rintro _ ⟨⟩
    decide
  · rintro _ ⟨⟩
    decide

end RollbackExample

open RollbackExample in
theorem rollback_afterAll_labels :
    ((mk [first]).NamesApart ∧ (mk [first]).RecordsAfresh calls ∧
      ∀ record ∈ ((mk [first]).afterAll calls).records, record.batch < 2 ^ 32 - 1) ∧
      (∀ record ∈ ((mk [first]).afterAll calls).records,
        record.batch < ((mk [first]).afterAll calls).nextBatch) ∧
      ((mk [first]).afterAll calls).nextBatch = 3 ∧
      ((mk [first]).afterAll calls).rollback.records = [first] := by
  have apart : (mk [first]).NamesApart := List.nodup_singleton _
  have small : ∀ record ∈ ((mk [first]).afterAll calls).records, record.batch < 2 ^ 32 - 1 := by
    decide
  rcases rollback_afterAll_iff [first] calls with ⟨larger, exact, leads⟩
  have prior : ((mk [first]).afterAll calls).priorRecords = [first] := by decide
  exact ⟨⟨apart, recordsAfresh_calls, small⟩, larger small, by decide,
    (exact.mpr (leads apart recordsAfresh_calls)).trans prior⟩

open RollbackExample in
/-- A name that is recorded again is removed from the first batch, and its last batch stays. -/
theorem rollback_of_repeated_name :
    (mk [first, again]).lastBatch = [again] ∧
      (mk [first, again]).rollback.records = [again] ∧
      (mk [first, again]).priorRecords = [first] ∧
      ¬∀ (initial : List MigrationRecord) (calls : List Call),
        ((mk initial).afterAll calls).rollback.records =
          ((mk initial).afterAll calls).priorRecords := by
  have last : (mk [first, again]).lastBatch = [again] := by decide
  have rolled : (mk [first, again]).rollback.records = [again] := by decide
  have prior : (mk [first, again]).priorRecords = [first] := by decide
  refine ⟨last, rolled, prior, fun exact => ?_⟩
  have same : [again] = [first] := rolled.symm.trans ((exact [first, again] []).trans prior)
  exact absurd same (by decide)

end MigrationHistory

end SchemaDdl
