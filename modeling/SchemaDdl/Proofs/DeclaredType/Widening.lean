import SchemaDdl.DeclaredType.Widening

/-!
# Widening of whole numbers

Nothing but a whole-number type widens to a whole-number type.
-/

namespace SchemaDdl.DeclaredType

variable {canonical old new : String}

theorem isInteger_of_digits (digits : (integerDigits? canonical).isSome = true) :
    isInteger canonical = true := by
  cases base : serialBase? canonical with
  | some _ =>
      have serial : (serialBase? canonical).isSome = true := Option.isSome_iff_exists.mpr ⟨_, base⟩
      simp only [serialBase?, List.lookup_isSome_iff, List.mem_cons, List.not_mem_nil, or_false,
        exists_eq_or_imp, exists_eq_left, beq_iff_eq] at serial
      rcases serial with rfl | rfl | rfl <;> decide
  | none =>
      simp only [integerDigits?, base, Option.getD_none, List.lookup_isSome_iff, List.mem_cons,
        List.not_mem_nil, or_false, exists_eq_or_imp, exists_eq_left, beq_iff_eq] at digits
      rcases digits with rfl | rfl | rfl <;> decide

theorem digits_iff :
    (integerDigits? canonical).isSome = true ↔
      isInteger canonical = true ∧ canonical ≠ "tinyint" ∧ canonical ≠ "mediumint" := by
  constructor
  · intro digits
    refine ⟨isInteger_of_digits digits, ?_, ?_⟩
    · intro tiny
      rw [tiny] at digits
      exact absurd digits (by decide)
    · intro medium
      rw [medium] at digits
      exact absurd digits (by decide)
  · intro holds
    rcases holds with ⟨integer, notTiny, notMedium⟩
    simp only [isInteger, isSerial, Bool.or_eq_true, List.contains_eq_mem, decide_eq_true_eq,
      List.mem_cons, List.not_mem_nil, or_false] at integer
    rcases integer with (rfl | rfl | rfl | rfl | rfl) | (rfl | rfl | rfl)
    · decide
    · decide
    · decide
    · exact absurd rfl notTiny
    · exact absurd rfl notMedium
    · decide
    · decide
    · decide

theorem digits_of_widens {oldModifiers newModifiers : List Nat}
    (wider : widens old oldModifiers new newModifiers = true)
    (digits : (integerDigits? new).isSome = true) : (integerDigits? old).isSome = true := by
  unfold widens at wider
  split at wider
  · simp [*]
  · simp [*]
  · -- No other pair of types that widens ends at a whole number.
    split at wider <;> first | exact absurd digits (by decide) | cases wider

theorem digits_of_isWidening (wider : isWidening old new = true)
    (digits : (integerDigits? (normalized new)).isSome = true) :
    (integerDigits? (normalized old)).isSome = true := by
  unfold isWidening at wider
  rw [Bool.or_eq_true, Bool.and_eq_true, beq_iff_eq] at wider
  rcases wider with ⟨same, _⟩ | wider
  · rw [same]
    exact digits
  · exact digits_of_widens wider digits

end SchemaDdl.DeclaredType
