import Mathlib.Data.List.Basic

/-!
# Items and what comes before and after them

What holds of every item of a list and the items before it, or after it, taken apart along the list:
an item of a part of the list has all earlier parts before it, and all later parts after it.
-/

namespace SchemaDdl

def EachAfter {α : Type} (related : List α → α → Prop) (items : List α) : Prop :=
  ∀ before item after, items = before ++ item :: after → related before item

section

variable {α β : Type} {related other : List α → α → Prop} {items first second : List α}

theorem eachAfter_nil : EachAfter related [] := by
  intro before item after split
  cases before <;> cases split

theorem eachAfter_cons {item : α} :
    EachAfter related (item :: items) ↔
      related [] item ∧ EachAfter (fun before => related (item :: before)) items := by
  constructor
  · intro each
    refine ⟨each [] item items rfl, fun before next after split => ?_⟩
    exact each (item :: before) next after (congrArg _ split)
  · intro holds before next after split
    rcases holds with ⟨head, tail⟩
    cases before with
    | nil =>
        cases split
        exact head
    | cons _ before =>
        cases split
        exact tail before next after rfl

theorem eachAfter_singleton {item : α} : EachAfter related [item] ↔ related [] item :=
  eachAfter_cons.trans (and_iff_left eachAfter_nil)

theorem eachAfter_append :
    EachAfter related (first ++ second) ↔
      EachAfter related first ∧ EachAfter (fun before => related (first ++ before)) second := by
  induction first generalizing related with
  | nil => exact (and_iff_right eachAfter_nil).symm
  | cons item items induction =>
      rw [List.cons_append, eachAfter_cons, eachAfter_cons, induction, and_assoc]
      rfl

theorem eachAfter_flatMap {origins : List β} {itemsOf : β → List α} :
    EachAfter related (origins.flatMap itemsOf) ↔
      EachAfter (fun before origin =>
        EachAfter (fun front => related (before.flatMap itemsOf ++ front)) (itemsOf origin))
        origins := by
  induction origins generalizing related with
  | nil => exact iff_of_true eachAfter_nil eachAfter_nil
  | cons origin origins induction =>
      rw [List.flatMap_cons, eachAfter_append, eachAfter_cons, induction]
      simp only [List.flatMap_nil, List.nil_append, List.flatMap_cons, List.append_assoc]

theorem eachAfter_map {origins : List β} {itemOf : β → α} :
    EachAfter related (origins.map itemOf) ↔
      EachAfter (fun before origin => related (before.map itemOf) (itemOf origin)) origins := by
  rw [List.map_eq_flatMap, eachAfter_flatMap]
  simp only [eachAfter_singleton, List.append_nil, ← List.map_eq_flatMap]

theorem eachAfter_congr
    (same : ∀ before item after, items = before ++ item :: after →
      (related before item ↔ other before item)) :
    EachAfter related items ↔ EachAfter other items :=
  forall₃_congr fun before item after => forall_congr' fun split => same before item after split

theorem eachAfter_and :
    EachAfter (fun before item => related before item ∧ other before item) items ↔
      EachAfter related items ∧ EachAfter other items := by
  constructor
  · intro each
    exact ⟨fun _ _ _ split => (each _ _ _ split).1, fun _ _ _ split => (each _ _ _ split).2⟩
  · intro holds before item after split
    exact ⟨holds.1 _ _ _ split, holds.2 _ _ _ split⟩

theorem eachAfter_iff_forall {holds : α → Prop}
    (same : ∀ before, (∀ item ∈ before, item ∈ items) → ∀ item ∈ items,
      (related before item ↔ holds item)) :
    EachAfter related items ↔ ∀ item ∈ items, holds item := by
  constructor
  · intro each item member
    rcases List.append_of_mem member with ⟨before, after, split⟩
    have front : ∀ item ∈ before, item ∈ items :=
      fun item member => split ▸ List.mem_append_left _ member
    exact (same before front item member).mp (each _ _ _ split)
  · intro all before item after split
    have front : ∀ item ∈ before, item ∈ items :=
      fun item member => split ▸ List.mem_append_left _ member
    have member : item ∈ items := split ▸ List.mem_append_right _ List.mem_cons_self
    exact (same before front item member).mpr (all item member)

theorem exists_append_of_not_mem {before after : List α} {item : α}
    (split : first ++ second = before ++ item :: after) (elsewhere : item ∉ second) :
    ∃ middle, after = middle ++ second := by
  rcases List.append_eq_append_iff.mp split with ⟨rest, _, rfl⟩ | ⟨rest, _, equal⟩
  · exact absurd (List.mem_append_right _ List.mem_cons_self) elsewhere
  · cases rest with
    | nil =>
        rw [List.nil_append] at equal
        rw [← equal] at elsewhere
        exact absurd List.mem_cons_self elsewhere
    | cons _ rest => exact ⟨rest, (List.cons.inj equal).2⟩

end

def EachBefore {α : Type} (related : α → List α → Prop) (items : List α) : Prop :=
  ∀ before item after, items = before ++ item :: after → related item after

section

variable {α β : Type} {related other : α → List α → Prop} {items first second : List α}

theorem eachBefore_of_forall (each : ∀ item ∈ items, ∀ after, related item after) :
    EachBefore related items := by
  intro before item after split
  exact each item (split ▸ List.mem_append_right _ List.mem_cons_self) after

theorem eachBefore_nil : EachBefore related [] :=
  eachBefore_of_forall (List.forall_mem_nil _)

theorem eachBefore_cons {item : α} :
    EachBefore related (item :: items) ↔ related item items ∧ EachBefore related items := by
  constructor
  · intro each
    exact ⟨each [] item items rfl,
      fun before next after split => each (item :: before) next after (congrArg _ split)⟩
  · intro holds before next after split
    rcases holds with ⟨head, tail⟩
    cases before with
    | nil =>
        cases split
        exact head
    | cons _ before =>
        cases split
        exact tail before next after rfl

theorem eachBefore_append :
    EachBefore related (first ++ second) ↔
      EachBefore (fun item after => related item (after ++ second)) first ∧
        EachBefore related second := by
  induction first with
  | nil => exact (and_iff_right eachBefore_nil).symm
  | cons item items induction =>
      rw [List.cons_append, eachBefore_cons, eachBefore_cons, induction, and_assoc]

theorem eachBefore_flatMap {origins : List β} {itemsOf : β → List α} :
    EachBefore related (origins.flatMap itemsOf) ↔
      EachBefore (fun origin later =>
        EachBefore (fun item after => related item (after ++ later.flatMap itemsOf))
          (itemsOf origin)) origins := by
  induction origins with
  | nil => exact iff_of_true eachBefore_nil eachBefore_nil
  | cons origin origins induction =>
      rw [List.flatMap_cons, eachBefore_append, eachBefore_cons, induction]

theorem eachBefore_congr
    (same : ∀ before item after, items = before ++ item :: after →
      (related item after ↔ other item after)) :
    EachBefore related items ↔ EachBefore other items :=
  forall₃_congr fun before item after => forall_congr' fun split => same before item after split

theorem eachBefore_iff_forall {holds : α → Prop}
    (same : ∀ before item after, items = before ++ item :: after →
      (related item after ↔ holds item)) :
    EachBefore related items ↔ ∀ item ∈ items, holds item := by
  constructor
  · intro each item member
    rcases List.append_of_mem member with ⟨before, after, split⟩
    exact (same before item after split).mp (each before item after split)
  · intro all before item after split
    have member : item ∈ items := split ▸ List.mem_append_right _ List.mem_cons_self
    exact (same before item after split).mpr (all item member)

end

end SchemaDdl
