import Mathlib.Data.List.Forall2
import SchemaDdl.Defect

/-!
# Attempts that succeed

When an attempt ends with a value, and what the values of a row of attempts have to do with its
items. Nothing here depends on what is written; later modules state for every part of a schema when
its text can be written, and put these statements together.
-/

namespace SchemaDdl

/-- Whether an attempt ends with a value. -/
def Succeeds {ε α : Type} (attempt : Except ε α) : Prop :=
  ∃ value, attempt = .ok value

section

variable {ε δ α β : Type}

@[simp] theorem succeeds_ok (value : α) : Succeeds (.ok value : Except ε α) :=
  ⟨value, rfl⟩

@[simp] theorem succeeds_pure (value : α) : Succeeds (pure value : Except ε α) :=
  ⟨value, rfl⟩

@[simp] theorem not_succeeds_error (error : ε) : ¬Succeeds (.error error : Except ε α) := by
  intro holds
  rcases holds with ⟨value, equal⟩
  cases equal

instance decidableExistsOk (attempt : Except ε α) : Decidable (∃ value, attempt = .ok value) :=
  match attempt with
  | .ok value => .isTrue ⟨value, rfl⟩
  | .error error => .isFalse (not_succeeds_error error)

instance decidableExistsOkAnd {holds : α → Prop} [DecidablePred holds] (attempt : Except ε α) :
    Decidable (∃ value, attempt = .ok value ∧ holds value) :=
  match attempt with
  | .ok value => decidable_of_iff (holds value) (by simp)
  | .error _ => .isFalse (by simp)

instance decidableExistsOkSingleton {holds : α → Prop} [DecidablePred holds]
    (attempt : Except ε (List α)) : Decidable (∃ value, attempt = .ok [value] ∧ holds value) :=
  match attempt with
  | .ok [value] => decidable_of_iff (holds value) (by simp)
  | .ok [] => .isFalse (by simp)
  | .ok (_ :: _ :: _) => .isFalse (by simp)
  | .error _ => .isFalse (by simp)

instance decidableSucceeds (attempt : Except ε α) : Decidable (Succeeds attempt) :=
  decidableExistsOk attempt

theorem exists_ok_and_of {holds : α → Prop} {others : Prop} {attempt : Except ε α}
    (done : ∃ value, attempt = .ok value ∧ holds value) (also : others) :
    ∃ value, attempt = .ok value ∧ holds value ∧ others := by
  rcases done with ⟨value, done, held⟩
  exact ⟨value, done, held, also⟩

@[simp] theorem succeeds_ite_ok {condition : Prop} [Decidable condition] {value : α}
    {attempt : Except ε α} :
    Succeeds (if condition then .ok value else attempt) ↔ condition ∨ Succeeds attempt := by
  split <;> simp [*]

@[simp] theorem succeeds_ite_error {condition : Prop} [Decidable condition] {error : ε}
    {attempt : Except ε α} :
    Succeeds (if condition then .error error else attempt) ↔ ¬condition ∧ Succeeds attempt := by
  split <;> simp [*]

theorem bind_eq_ok_iff {attempt : Except ε α} {next : α → Except ε β} {result : β} :
    attempt >>= next = .ok result ↔ ∃ value, attempt = .ok value ∧ next value = .ok result := by
  cases attempt with
  | error error => simp [bind, Except.bind]
  | ok value => simp [bind, Except.bind]

@[simp] theorem map_eq_ok_iff {attempt : Except ε α} {change : α → β} {result : β} :
    attempt.map change = .ok result ↔ ∃ value, attempt = .ok value ∧ change value = result := by
  cases attempt with
  | error error => simp [Except.map]
  | ok value => simp [Except.map]

theorem succeeds_bind {attempt : Except ε α} {next : α → Except ε β} :
    Succeeds (attempt >>= next) ↔ ∃ value, attempt = .ok value ∧ Succeeds (next value) := by
  cases attempt with
  | error error => simp [bind, Except.bind]
  | ok value => simp [bind, Except.bind]

theorem succeeds_bind_of_forall {attempt : Except ε α} {next : α → Except ε β} (condition : Prop)
    (same : ∀ value, Succeeds (next value) ↔ condition) :
    Succeeds (attempt >>= next) ↔ Succeeds attempt ∧ condition := by
  cases attempt with
  | error error => simp [bind, Except.bind]
  | ok value => simpa [bind, Except.bind] using same value

theorem succeeds_bind_of_total {attempt : Except ε α} {next : α → Except ε β}
    (total : ∀ value, Succeeds (next value)) :
    Succeeds (attempt >>= next) ↔ Succeeds attempt := by
  rw [succeeds_bind_of_forall True fun value => iff_true_intro (total value), and_true]

theorem succeeds_bind_unit {attempt : Except ε Unit} {next : Unit → Except ε β} :
    Succeeds (attempt >>= next) ↔ Succeeds attempt ∧ Succeeds (next ()) :=
  succeeds_bind_of_forall _ fun _ => Iff.rfl

theorem succeeds_guard {condition : Prop} [Decidable condition] {attempt : Except ε Unit}
    {next : Unit → Except ε β} :
    Succeeds (if condition then attempt >>= next else next ()) ↔
      (condition → Succeeds attempt) ∧ Succeeds (next ()) := by
  split <;> simp [succeeds_bind_unit, *]

@[simp] theorem succeeds_map {attempt : Except ε α} {change : α → β} :
    Succeeds (attempt.map change) ↔ Succeeds attempt := by
  cases attempt <;> simp [Except.map]

@[simp] theorem succeeds_functor_map {attempt : Except ε α} {change : α → β} :
    Succeeds (change <$> attempt) ↔ Succeeds attempt :=
  succeeds_map

@[simp] theorem succeeds_mapError {attempt : Except ε α} {change : ε → δ} :
    Succeeds (attempt.mapError change) ↔ Succeeds attempt := by
  cases attempt <;> simp [Except.mapError]

theorem mapM_eq_ok_iff {attempt : α → Except ε β} {items : List α} {values : List β} :
    items.mapM attempt = .ok values ↔
      List.Forall₂ (fun item value => attempt item = .ok value) items values := by
  induction items generalizing values with
  | nil => simp [pure, Except.pure, eq_comm]
  | cons item items induction =>
      rw [List.mapM_cons, bind_eq_ok_iff]
      constructor
      · intro holds
        rcases holds with ⟨first, firstOk, rest⟩
        rcases bind_eq_ok_iff.mp rest with ⟨others, othersOk, equal⟩
        cases equal
        exact .cons firstOk (induction.mp othersOk)
      · intro related
        cases related with
        | cons firstOk othersOk =>
            exact ⟨_, firstOk, bind_eq_ok_iff.mpr ⟨_, induction.mpr othersOk, rfl⟩⟩

@[simp] theorem succeeds_mapM {attempt : α → Except ε β} {items : List α} :
    Succeeds (items.mapM attempt) ↔ ∀ item ∈ items, Succeeds (attempt item) := by
  induction items with
  | nil => simp
  | cons item items induction =>
      rw [List.mapM_cons, succeeds_bind_of_forall (Succeeds (items.mapM attempt)), induction,
        List.forall_mem_cons]
      intro first
      exact succeeds_bind_of_total fun others => succeeds_pure _

theorem exists_of_forall₂ {Related : α → β → Prop} {items : List α} {values : List β}
    (related : List.Forall₂ Related items values) {value : β} (member : value ∈ values) :
    ∃ item ∈ items, Related item value := by
  induction related with
  | nil => cases member
  | cons headRelated _ induction =>
      rcases List.mem_cons.mp member with equal | member
      · exact ⟨_, List.mem_cons_self, equal ▸ headRelated⟩
      · rcases induction member with ⟨item, itemMember, itemRelated⟩
        exact ⟨item, List.mem_cons_of_mem _ itemMember, itemRelated⟩

theorem exists_item_of_mapM {attempt : α → Except ε β} {items : List α} {values : List β}
    (done : items.mapM attempt = .ok values) {value : β} (member : value ∈ values) :
    ∃ item ∈ items, attempt item = .ok value :=
  exists_of_forall₂ (mapM_eq_ok_iff.mp done) member

theorem exists_value_of_mapM {attempt : α → Except ε β} {items : List α} {values : List β}
    (done : items.mapM attempt = .ok values) {item : α} (member : item ∈ items) :
    ∃ value ∈ values, attempt item = .ok value :=
  exists_of_forall₂ (List.Forall₂.flip (mapM_eq_ok_iff.mp done)) member

end

/-! ## Parts and wholes -/

@[simp] theorem succeeds_whole {α : Type} {attempt : Attempt α} :
    Succeeds attempt.whole ↔ Succeeds attempt :=
  succeeds_mapError

theorem whole_eq_ok_iff {α : Type} {attempt : Attempt α} {value : α} :
    attempt.whole = .ok value ↔ attempt = .ok value := by
  cases attempt <;> simp [Attempt.whole, Except.mapError]

end SchemaDdl
