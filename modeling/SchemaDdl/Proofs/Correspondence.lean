import SchemaDdl.Proofs.Success

/-!
# Attempts that correspond

Two attempts correspond when both fail, whatever their errors are, or both end with values that are
related. Correspondence is kept by everything that attempts are put together with, so that two
writers are compared part by part.
-/

namespace SchemaDdl

def Correspond {ε δ α β : Type} (Related : α → β → Prop) : Except ε α → Except δ β → Prop
  | .ok left, .ok right => Related left right
  | .error _, .error _ => True
  | _, _ => False

namespace Correspond

variable {ε ε' δ δ' α β γ κ : Type} {Related : α → β → Prop} {Further : γ → κ → Prop}

theorem ok {left : α} {right : β} (related : Related left right) :
    Correspond Related (.ok left : Except ε α) (.ok right : Except δ β) :=
  related

@[simp] theorem ok_iff {left : α} {right : β} :
    Correspond Related (.ok left : Except ε α) (.ok right : Except δ β) ↔ Related left right :=
  Iff.rfl

@[simp] theorem not_ok_error {left : α} {right : δ} :
    ¬Correspond Related (.ok left : Except ε α) (.error right) :=
  id

@[simp] theorem not_error_ok {left : ε} {right : β} :
    ¬Correspond Related (.error left) (.ok right : Except δ β) :=
  id

theorem error (left : ε) (right : δ) :
    Correspond Related (.error left : Except ε α) (.error right : Except δ β) :=
  trivial

theorem refl (attempt : Except ε α) : Correspond Eq attempt attempt := by
  cases attempt with
  | error error => exact trivial
  | ok value => exact rfl

theorem of_succeeds_iff {left : Except ε α} {right : Except δ β}
    (same : Succeeds left ↔ Succeeds right)
    (related : ∀ first second, left = .ok first → right = .ok second → Related first second) :
    Correspond Related left right := by
  cases left with
  | error _ =>
      cases right with
      | error _ => exact trivial
      | ok second => exact absurd (same.mpr ⟨second, rfl⟩) (not_succeeds_error _)
  | ok first =>
      cases right with
      | error _ => exact absurd (same.mp ⟨first, rfl⟩) (not_succeeds_error _)
      | ok second => exact related first second rfl rfl

theorem mono {Weaker : α → β → Prop} {left : Except ε α} {right : Except δ β}
    (holds : Correspond Related left right)
    (weaker : ∀ first second, left = .ok first → right = .ok second →
      Related first second → Weaker first second) :
    Correspond Weaker left right := by
  cases left with
  | error _ =>
      cases right with
      | error _ => exact trivial
      | ok _ => exact holds
  | ok first =>
      cases right with
      | error _ => exact holds
      | ok second => exact weaker first second rfl rfl holds

theorem bind {left : Except ε α} {right : Except δ β} {next : α → Except ε γ}
    {next' : β → Except δ κ} (holds : Correspond Related left right)
    (further : ∀ first second, Related first second →
      Correspond Further (next first) (next' second)) :
    Correspond Further (left >>= next) (right >>= next') := by
  cases left with
  | error _ =>
      cases right with
      | error _ => exact trivial
      | ok _ => exact holds.elim
  | ok first =>
      cases right with
      | error _ => exact holds.elim
      | ok second => exact further first second holds

theorem bind_eq {left : Except ε α} {right : Except δ α} {next : α → Except ε γ}
    {next' : α → Except δ κ} (holds : Correspond Eq left right)
    (further : ∀ value, Correspond Further (next value) (next' value)) :
    Correspond Further (left >>= next) (right >>= next') := by
  apply holds.bind
  intro first second same
  cases same
  exact further first

theorem map {left : Except ε α} {right : Except δ β} {change : α → γ} {change' : β → κ}
    (holds : Correspond Related left right)
    (further : ∀ first second, Related first second → Further (change first) (change' second)) :
    Correspond Further (left.map change) (right.map change') := by
  cases left with
  | error _ =>
      cases right with
      | error _ => exact trivial
      | ok _ => exact holds.elim
  | ok first =>
      cases right with
      | error _ => exact holds.elim
      | ok second => exact further first second holds

theorem mapError {left : Except ε α} {right : Except δ β} {change : ε → ε'} {change' : δ → δ'}
    (holds : Correspond Related left right) :
    Correspond Related (left.mapError change) (right.mapError change') := by
  cases left <;> cases right <;> exact holds

theorem ite {condition : Prop} [Decidable condition] {first second : Except ε α}
    {first' second' : Except δ β} (yes : condition → Correspond Related first first')
    (no : ¬condition → Correspond Related second second') :
    Correspond Related (if condition then first else second)
      (if condition then first' else second') := by
  split
  · exact yes ‹_›
  · exact no ‹_›

theorem mapM {items : List γ} {left : γ → Except ε α} {right : γ → Except δ β}
    (holds : ∀ item ∈ items, Correspond Related (left item) (right item)) :
    Correspond (List.Forall₂ Related) (items.mapM left) (items.mapM right) := by
  induction items with
  | nil => exact .nil
  | cons item items induction =>
      rw [List.mapM_cons, List.mapM_cons]
      apply (holds item List.mem_cons_self).bind
      intro first second related
      apply (induction fun item member => holds item (List.mem_cons_of_mem _ member)).bind
      intro others others' relatedOthers
      exact .cons related relatedOthers

theorem succeeds_iff {left : Except ε α} {right : Except δ β}
    (holds : Correspond Related left right) : Succeeds left ↔ Succeeds right := by
  cases left with
  | error _ =>
      cases right with
      | error _ => simp
      | ok _ => exact holds.elim
  | ok first =>
      cases right with
      | error _ => exact holds.elim
      | ok second => simp

theorem related {left : Except ε α} {right : Except δ β} (holds : Correspond Related left right)
    {first : α} {second : β} (leftDone : left = .ok first) (rightDone : right = .ok second) :
    Related first second := by
  rw [leftDone, rightDone] at holds
  exact holds

end Correspond

-- The lemmas are all that is needed from here on; attempts are not to be evaluated for it.
attribute [irreducible] Correspond

end SchemaDdl
