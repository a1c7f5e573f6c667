import SchemaDdl.Writing.Table

/-!
# Verdicts

Whether an attempt succeeds and, when it does not, with which error. Two attempts with the same
verdict may end with different values; everything attempts are put together with keeps verdicts
that are the same.
-/

namespace SchemaDdl

def verdict {ε α : Type} (attempt : Except ε α) : Except ε Unit :=
  attempt.map fun _ => ()

section

variable {ε α α' β β' γ : Type}

@[simp] theorem verdict_ok (value : α) : verdict (.ok value : Except ε α) = .ok () :=
  rfl

@[simp] theorem verdict_error (error : ε) : verdict (.error error : Except ε α) = .error error :=
  rfl

theorem map_eq_error_iff {attempt : Except ε α} {change : α → β} {error : ε} :
    attempt.map change = .error error ↔ attempt = .error error := by
  cases attempt with
  | error other => simp [Except.map]
  | ok value => simp [Except.map]

theorem verdict_eq_error_iff {attempt : Except ε α} {error : ε} :
    verdict attempt = .error error ↔ attempt = .error error :=
  map_eq_error_iff

theorem verdict_pure (value : α) (value' : α') :
    verdict (pure value : Except ε α) = verdict (pure value' : Except ε α') :=
  rfl

@[simp] theorem verdict_map (attempt : Except ε α) (change : α → β) :
    verdict (attempt.map change) = verdict attempt := by
  cases attempt <;> rfl

theorem verdict_mapError {δ : Type} {first : Except ε α} {second : Except ε α'} {change : ε → δ}
    (same : verdict first = verdict second) :
    verdict (first.mapError change) = verdict (second.mapError change) := by
  cases first with
  | error error =>
    cases second with
    | error other =>
      cases same
      rfl
    | ok value => cases same
  | ok value =>
    cases second with
    | error other => cases same
    | ok value => rfl

theorem verdict_bind {first : Except ε α} {second : Except ε α'} {next : α → Except ε β}
    {next' : α' → Except ε β'} (same : verdict first = verdict second)
    (further : ∀ value value', verdict (next value) = verdict (next' value')) :
    verdict (first >>= next) = verdict (second >>= next') := by
  cases first with
  | error error =>
    cases second with
    | error other =>
      cases same
      rfl
    | ok value => cases same
  | ok value =>
    cases second with
    | error other => cases same
    | ok value' => exact further value value'

theorem verdict_bind_left {first : Except ε α} {next : α → Except ε β} {next' : α → Except ε β'}
    (further : ∀ value, verdict (next value) = verdict (next' value)) :
    verdict (first >>= next) = verdict (first >>= next') := by
  cases first with
  | error error => rfl
  | ok value => exact further value

theorem verdict_mapM {items : List γ} {first : γ → Except ε α} {second : γ → Except ε α'}
    (same : ∀ item, verdict (first item) = verdict (second item)) :
    verdict (items.mapM first) = verdict (items.mapM second) := by
  induction items with
  | nil => rfl
  | cons item items induction =>
    rw [List.mapM_cons, List.mapM_cons]
    exact verdict_bind (same item) fun _ _ => verdict_bind induction fun _ _ => verdict_pure _ _

theorem map_mapM {items : List γ} {attempt : γ → Except ε α} {change : α → β} :
    (items.mapM attempt).map (List.map change) =
      items.mapM fun item => (attempt item).map change := by
  induction items with
  | nil => rfl
  | cons item items induction =>
    rw [List.mapM_cons, List.mapM_cons, ← induction]
    cases attempt item with
    | error error => rfl
    | ok value => cases items.mapM attempt <;> rfl

end

theorem verdict_whole {α α' : Type} {first : Attempt α} {second : Attempt α'}
    (same : verdict first = verdict second) : verdict first.whole = verdict second.whole :=
  verdict_mapError same

theorem partition_map_verdict {α : Type} (attempts : List (Attempt α)) :
    (Attempt.partition (attempts.map verdict)).1 = (Attempt.partition attempts).1 := by
  induction attempts with
  | nil => rfl
  | cons attempt attempts induction =>
    cases attempt with
    | ok value => exact induction
    | error defect => exact congrArg (defect :: ·) induction

end SchemaDdl
