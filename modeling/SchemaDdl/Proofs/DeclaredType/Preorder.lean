import Mathlib.Data.List.Chain
import SchemaDdl.Proofs.Change.Danger
import SchemaDdl.Proofs.DeclaredType.Widening

/-!
# Widening step by step

Widening is a preorder of declared types. A column that goes through several types, none of which is
narrower than the one before, ends up with a type that is not narrower than the first.
-/

namespace SchemaDdl

namespace DeclaredType

variable {old middle new : String} {oldModifiers middleModifiers newModifiers : List Nat}
  {digits : Nat}

/-! ## Room for modifiers -/

theorem holdsDigits_iff : holdsDigits digits newModifiers = true ↔
    ∀ room ∈ decimalPlaces? newModifiers, digits ≤ room.1 := by
  rcases newModifiers with _ | ⟨precision, _ | ⟨scale, _⟩⟩ <;> simp [holdsDigits, decimalPlaces?]

theorem decimalFits_iff : decimalFits oldModifiers newModifiers = true ↔
    ∀ room ∈ decimalPlaces? newModifiers, ∃ places ∈ decimalPlaces? oldModifiers,
      places.1 ≤ room.1 ∧ places.2 ≤ room.2 := by
  unfold decimalFits
  cases decimalPlaces? oldModifiers <;> cases decimalPlaces? newModifiers <;> simp [and_comm]

theorem lengthFits_iff : lengthFits oldModifiers newModifiers = true ↔
    ∀ room ∈ newModifiers.head?, ∃ length ∈ oldModifiers.head?, length ≤ room := by
  cases oldModifiers <;> cases newModifiers <;> simp [lengthFits]

theorem fixedLengthFits_iff : fixedLengthFits oldModifiers newModifiers = true ↔
    ∃ length ∈ oldModifiers.head?, ∃ room ∈ newModifiers.head?, length ≤ room := by
  cases oldModifiers <;> cases newModifiers <;> simp [fixedLengthFits]

theorem holdsDigits_of_decimalFits (holds : holdsDigits digits middleModifiers = true)
    (fits : decimalFits middleModifiers newModifiers = true) :
    holdsDigits digits newModifiers = true := by
  rw [holdsDigits_iff] at holds ⊢
  rw [decimalFits_iff] at fits
  intro room last
  obtain ⟨places, held, whole, _⟩ := fits room last
  exact Nat.le_trans (holds places held) whole

theorem decimalFits_trans (first : decimalFits oldModifiers middleModifiers = true)
    (second : decimalFits middleModifiers newModifiers = true) :
    decimalFits oldModifiers newModifiers = true := by
  rw [decimalFits_iff] at first second ⊢
  intro room last
  obtain ⟨between, middle, whole, scale⟩ := second room last
  obtain ⟨places, held, wholeBefore, scaleBefore⟩ := first between middle
  exact ⟨places, held, Nat.le_trans wholeBefore whole, Nat.le_trans scaleBefore scale⟩

theorem lengthFits_trans (first : lengthFits oldModifiers middleModifiers = true)
    (second : lengthFits middleModifiers newModifiers = true) :
    lengthFits oldModifiers newModifiers = true := by
  rw [lengthFits_iff] at first second ⊢
  intro room last
  obtain ⟨between, middle, longer⟩ := second room last
  obtain ⟨length, held, longerBefore⟩ := first between middle
  exact ⟨length, held, Nat.le_trans longerBefore longer⟩

theorem fixedLengthFits_trans (first : fixedLengthFits oldModifiers middleModifiers = true)
    (second : fixedLengthFits middleModifiers newModifiers = true) :
    fixedLengthFits oldModifiers newModifiers = true := by
  rw [fixedLengthFits_iff] at first second ⊢
  obtain ⟨length, held, between, middle, longerBefore⟩ := first
  obtain ⟨same, middle', room, last, longer⟩ := second
  cases Option.mem_unique middle middle'
  exact ⟨length, held, room, last, Nat.le_trans longerBefore longer⟩

/-! ## What a type widens to -/

theorem widens_of_digits (numbered : integerDigits? old = some digits) :
    widens old oldModifiers new newModifiers = true ↔
      (∃ room, integerDigits? new = some room ∧ digits ≤ room) ∨
        new = "numeric" ∧ holdsDigits digits newModifiers = true := by
  unfold widens
  rw [numbered]
  cases room : integerDigits? new with
  | none => simp
  | some room =>
    have other : new ≠ "numeric" := by
      rintro rfl
      cases room
    simp [other]

theorem widens_of_unnumbered (unnumbered : integerDigits? old = none) :
    widens old oldModifiers new newModifiers = true ↔
      old = "real" ∧ new = "double precision" ∨
      old = "timestamp" ∧ new = "timestamptz" ∨
      old = "varchar" ∧ new = "text" ∨
      (old = "varchar" ∧ new = "varchar") ∧ lengthFits oldModifiers newModifiers = true ∨
      (old = "char" ∧ new = "char") ∧ fixedLengthFits oldModifiers newModifiers = true ∨
      (old = "numeric" ∧ new = "numeric") ∧ decimalFits oldModifiers newModifiers = true := by
  unfold widens
  rw [unnumbered]
  simp only
  split <;> simp_all

theorem widens_trans (first : widens old oldModifiers middle middleModifiers = true)
    (second : widens middle middleModifiers new newModifiers = true) :
    widens old oldModifiers new newModifiers = true := by
  cases numbered : integerDigits? old with
  | some digits =>
    rw [widens_of_digits numbered] at first ⊢
    rcases first with ⟨room, middleNumbered, fits⟩ | ⟨rfl, holds⟩
    · rw [widens_of_digits middleNumbered] at second
      rcases second with ⟨last, lastNumbered, fitsLast⟩ | ⟨rfl, holds⟩
      · exact .inl ⟨last, lastNumbered, Nat.le_trans fits fitsLast⟩
      · apply Or.inr
        rw [holdsDigits_iff] at holds ⊢
        exact ⟨rfl, fun last found => Nat.le_trans fits (holds last found)⟩
    · rw [widens_of_unnumbered rfl] at second
      simp only [String.reduceEq, false_and, true_and, false_or] at second
      exact .inr ⟨second.1, holdsDigits_of_decimalFits holds second.2⟩
  | none =>
    rw [widens_of_unnumbered numbered] at first ⊢
    -- Nothing is wider than a type that is reached from another one by name alone.
    rcases first with ⟨rfl, rfl⟩ | ⟨rfl, rfl⟩ | ⟨rfl, rfl⟩ | ⟨⟨rfl, rfl⟩, fits⟩ |
      ⟨⟨rfl, rfl⟩, fits⟩ | ⟨⟨rfl, rfl⟩, fits⟩ <;> rw [widens_of_unnumbered rfl] at second <;>
      simp only [String.reduceEq, false_and, true_and, false_or, or_false] at second ⊢
    · rcases second with rfl | ⟨rfl, longer⟩
      · exact .inl rfl
      · exact .inr ⟨rfl, lengthFits_trans fits longer⟩
    · exact ⟨second.1, fixedLengthFits_trans fits second.2⟩
    · exact ⟨second.1, decimalFits_trans fits second.2⟩

/-! ## Declared types -/

theorem isWidening_iff : isWidening old new = true ↔
    (normalized old = normalized new ∧ modifiers old = modifiers new) ∨
      widens (normalized old) (modifiers old) (normalized new) (modifiers new) = true := by
  rw [isWidening, Bool.or_eq_true, Bool.and_eq_true, beq_iff_eq, beq_iff_eq]

theorem isWidening_refl (declared : String) : isWidening declared declared = true :=
  isWidening_iff.mpr (.inl ⟨rfl, rfl⟩)

theorem isWidening_trans (first : isWidening old middle = true)
    (second : isWidening middle new = true) : isWidening old new = true := by
  rw [isWidening_iff] at first second ⊢
  rcases first with ⟨sameName, sameModifiers⟩ | wider
  · rw [sameName, sameModifiers]
    exact second
  · rcases second with ⟨sameName, sameModifiers⟩ | widerStill
    · rw [← sameName, ← sameModifiers]
      exact .inr wider
    · exact .inr (widens_trans wider widerStill)

end DeclaredType

/-! ## Versions of a column -/

namespace ColumnChange

/-- Whether the type changes to one that does not keep every value. -/
def narrows (change : ColumnChange) : Bool :=
  change.typeChanged && !change.widening

theorem narrows_eq_false_iff {change : ColumnChange} : change.narrows = false ↔
    change.old.collation = change.new.collation ∧ change.old.isArray = change.new.isArray ∧
      DeclaredType.isWidening change.old.dataType change.new.dataType = true := by
  have reading : change.narrows = false ↔ ¬change.Retypes := by
    rw [retypes_iff, narrows]
    cases change.typeChanged <;> cases change.widening <;> simp
  rw [reading, Retypes]
  constructor
  · intro keeps
    by_contra narrower
    apply keeps
    refine ⟨?_, narrower⟩
    by_contra unchanged
    rw [not_or, not_not, not_not, typeSignature, typeSignature, Prod.mk.injEq,
      Prod.mk.injEq] at unchanged
    obtain ⟨⟨sameName, sameModifiers, sameArray⟩, sameCollation⟩ := unchanged
    exact narrower ⟨sameCollation, sameArray,
      DeclaredType.isWidening_iff.mpr (.inl ⟨sameName, sameModifiers⟩)⟩
  · intro keeps retypes
    exact retypes.2 keeps

theorem not_narrows_trans {first second third : Column} (left : narrows ⟨first, second⟩ = false)
    (right : narrows ⟨second, third⟩ = false) : narrows ⟨first, third⟩ = false := by
  rw [narrows_eq_false_iff] at left right ⊢
  obtain ⟨collation, array, wider⟩ := left
  obtain ⟨nextCollation, nextArray, widerStill⟩ := right
  exact ⟨collation.trans nextCollation, array.trans nextArray,
    DeclaredType.isWidening_trans wider widerStill⟩

theorem not_narrows_of_isChain {first : Column} {later : List Column}
    (steps : (first :: later).IsChain fun old new => narrows ⟨old, new⟩ = false) :
    ∀ last ∈ later, narrows ⟨first, last⟩ = false := by
  let _ : Trans (fun old new : Column => narrows ⟨old, new⟩ = false)
      (fun old new => narrows ⟨old, new⟩ = false) (fun old new => narrows ⟨old, new⟩ = false) :=
    ⟨not_narrows_trans⟩
  intro last member
  exact steps.rel_cons member

end ColumnChange

/-- Widening is a preorder of declared types, and a column that is changed in steps is never
narrowed unless one of the steps narrows it. -/
theorem DeclaredType.isWidening_preorder :
    (∀ declared, isWidening declared declared = true) ∧
    (∀ first second third, isWidening first second = true → isWidening second third = true →
      isWidening first third = true) ∧
    ∀ (first : Column) (later : List Column),
      ((first :: later).IsChain fun old new => ColumnChange.narrows ⟨old, new⟩ = false) →
        ∀ last ∈ later, ColumnChange.narrows ⟨first, last⟩ = false :=
  ⟨isWidening_refl, fun _ _ _ => isWidening_trans, fun _ _ => ColumnChange.not_narrows_of_isChain⟩

/-! ## An example -/

namespace PreorderExample

def price (dataType : String) : Column := { name := "price", dataType }

end PreorderExample

open PreorderExample in
theorem isWidening_preorder_price :
    DeclaredType.isWidening "Int2" "serial4" = true ∧
      DeclaredType.isWidening "serial4" "decimal(12, 2)" = true ∧
      DeclaredType.isWidening "Int2" "decimal(12, 2)" = true ∧
      ([price "Int2", price "serial4", price "decimal(12, 2)"].IsChain fun old new =>
        ColumnChange.narrows ⟨old, new⟩ = false) ∧
      ColumnChange.narrows ⟨price "Int2", price "decimal(12, 2)"⟩ = false := by
  have first : DeclaredType.isWidening "Int2" "serial4" = true := by decide +kernel
  have second : DeclaredType.isWidening "serial4" "decimal(12, 2)" = true := by decide +kernel
  have steps : [price "Int2", price "serial4", price "decimal(12, 2)"].IsChain fun old new =>
      ColumnChange.narrows ⟨old, new⟩ = false :=
    .cons_cons (by decide +kernel) (.cons_cons (by decide +kernel) (.singleton _))
  obtain ⟨_, steadily, inSteps⟩ := DeclaredType.isWidening_preorder
  exact ⟨first, second, steadily _ _ _ first second, steps, inSteps _ _ steps _ (by simp)⟩

end SchemaDdl
