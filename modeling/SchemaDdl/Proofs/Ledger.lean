import Mathlib.Data.List.Nodup
import SchemaDdl.Proofs.Precedence

/-!
# Names in force

An account of names that may be in force once at a time. An entry first takes names out of force and
then puts names in force, which fails for a name that is in force still. Where no name is put in
force twice, a run of entries goes through exactly when each name that was in force from the start
is taken out before it is put in again.
-/

namespace SchemaDdl

/-- The names that are taken out of force, and those that are put in force after that. -/
structure Entry (α : Type) where
  dropped : List α := []
  added : List α := []
deriving DecidableEq, Repr

namespace Entry

variable {α : Type} [DecidableEq α] {held final : List α} {entry : Entry α}
  {entries others : List (Entry α)} {name : α}

def post? (held : List α) (entry : Entry α) : Option (List α) :=
  let kept := held.filter (· ∉ entry.dropped)
  if entry.added.Nodup ∧ ∀ name ∈ entry.added, name ∉ kept then some (kept ++ entry.added)
  else none

def postAll? (held : List α) (entries : List (Entry α)) : Option (List α) :=
  entries.foldlM post? held

/-- Whether an entry puts only names in force that were not in force from the start, or that it or
an earlier entry took out. -/
def Follows (held : List α) (earlier : List (Entry α)) (entry : Entry α) : Prop :=
  ∀ name ∈ entry.added, name ∈ held → name ∈ entry.dropped ∨ name ∈ earlier.flatMap (·.dropped)

theorem post?_eq_some_iff :
    entry.post? held = some final ↔
      (entry.added.Nodup ∧ ∀ name ∈ entry.added, name ∈ held → name ∈ entry.dropped) ∧
        held.filter (· ∉ entry.dropped) ++ entry.added = final := by
  have free : (∀ name ∈ entry.added, name ∉ held.filter (· ∉ entry.dropped)) ↔
      ∀ name ∈ entry.added, name ∈ held → name ∈ entry.dropped := by
    refine forall₂_congr fun name _ => ?_
    simp [List.mem_filter]
  unfold post?
  simp only [free, Option.ite_none_right_eq_some, Option.some.injEq]

theorem mem_post? (posted : entry.post? held = some final) :
    name ∈ final ↔ name ∈ held ∧ name ∉ entry.dropped ∨ name ∈ entry.added := by
  rw [← (post?_eq_some_iff.mp posted).2, List.mem_append, List.mem_filter, decide_eq_true_iff]

theorem postAll?_cons :
    postAll? held (entry :: entries) = (entry.post? held).bind (postAll? · entries) :=
  rfl

theorem postAll?_append :
    postAll? held (entries ++ others) = (postAll? held entries).bind (postAll? · others) :=
  List.foldlM_append

/-- A run goes through exactly when no entry puts a name in force that has been so from the start
and is not yet taken out. -/
theorem isSome_postAll?_iff (distinct : (entries.flatMap (·.added)).Nodup) :
    (postAll? held entries).isSome = true ↔ EachAfter (Follows held) entries := by
  induction entries generalizing held with
  | nil => exact iff_of_true rfl eachAfter_nil
  | cons entry entries induction =>
      rw [List.flatMap_cons, List.nodup_append] at distinct
      rcases distinct with ⟨own, rest, apart⟩
      rw [postAll?_cons, eachAfter_cons]
      have first : Follows held [] entry ↔
          ∀ name ∈ entry.added, name ∈ held → name ∈ entry.dropped := by
        simp [Follows]
      cases posted : entry.post? held with
      | none =>
          refine iff_of_false nofun fun holds => ?_
          have some := post?_eq_some_iff.mpr ⟨⟨own, first.mp holds.1⟩, rfl⟩
          rw [posted] at some
          cases some
      | some next =>
          rw [Option.bind_some, induction rest, first]
          rw [and_iff_right (post?_eq_some_iff.mp posted).1.2]
          -- A later name is not put in force by this entry, which only may take it out.
          refine eachAfter_congr fun before other after split => ?_
          refine forall₂_congr fun name added => ?_
          have later : name ∉ entry.added := fun member =>
            apart name member name (List.mem_flatMap.mpr
              ⟨other, split ▸ List.mem_append_right _ List.mem_cons_self, added⟩) rfl
          rw [mem_post? posted, or_iff_left later]
          by_cases dropped : name ∈ entry.dropped
          · simp [dropped]
          · simp [dropped]

omit [DecidableEq α] in
theorem eachAfter_follows_of_own {earlier : List (Entry α) → List (Entry α)}
    (own : ∀ entry ∈ entries, ∀ name ∈ entry.added, name ∈ entry.dropped) :
    EachAfter (fun before => Follows held (earlier before)) entries := by
  intro before entry after split name added _
  exact .inl (own entry (split ▸ List.mem_append_right _ List.mem_cons_self) name added)

/-! ## Names in the end -/

theorem mem_postAll?_of_readds
    (readds : ∀ entry ∈ entries, ∀ name ∈ entry.dropped, name ∈ entry.added)
    (posted : postAll? held entries = some final) :
    name ∈ final ↔ name ∈ held ∨ name ∈ entries.flatMap (·.added) := by
  induction entries generalizing held with
  | nil =>
      cases posted
      simp
  | cons entry entries induction =>
      rcases List.forall_mem_cons.mp readds with ⟨own, rest⟩
      rcases Option.bind_eq_some_iff.mp posted with ⟨next, first, posted⟩
      rw [induction rest posted, mem_post? first, List.flatMap_cons, List.mem_append]
      by_cases dropped : name ∈ entry.dropped
      · simp [own name dropped]
      · simp [dropped, or_assoc]

theorem mem_postAll?_of_removes (removes : ∀ entry ∈ entries, entry.added = [])
    (posted : postAll? held entries = some final) :
    name ∈ final ↔ name ∈ held ∧ name ∉ entries.flatMap (·.dropped) := by
  induction entries generalizing held with
  | nil =>
      cases posted
      simp
  | cons entry entries induction =>
      rcases List.forall_mem_cons.mp removes with ⟨own, rest⟩
      rcases Option.bind_eq_some_iff.mp posted with ⟨next, first, posted⟩
      rw [induction rest posted, mem_post? first, own, List.flatMap_cons, List.mem_append]
      simp [and_assoc]

theorem postAll?_map_filter {β : Type} {items : List β} {entryOf : β → Entry α}
    {concerns : β → Bool}
    (quiet : ∀ item ∈ items, concerns item = false → entryOf item = {}) :
    postAll? held ((items.filter concerns).map entryOf) = postAll? held (items.map entryOf) := by
  induction items generalizing held with
  | nil => rfl
  | cons item items induction =>
      rcases List.forall_mem_cons.mp quiet with ⟨first, rest⟩
      rw [List.map_cons, postAll?_cons]
      cases concerned : concerns item with
      | true =>
          rw [List.filter_cons_of_pos concerned, List.map_cons, postAll?_cons]
          exact Option.bind_congr fun next _ => induction rest
      | false =>
          have same : post? held (entryOf item) = some held := by
            rw [first concerned]
            simp [post?]
          rw [List.filter_cons_of_neg (by simp [concerned]), same, Option.bind_some, induction rest]

end Entry

end SchemaDdl
