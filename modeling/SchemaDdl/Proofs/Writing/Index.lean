import SchemaDdl.Proofs.Writing.Table
import SchemaDdl.Writing.Index

/-!
# When an index can be written
-/

namespace SchemaDdl.Target

variable {target : Target} {index : Index}

structure TakesIndex (target : Target) (index : Index) : Prop where
  keys : index.keys ≠ []
  method : target.capabilities.supportsIndexMethod index.method = true
  covering : index.covering ≠ [] → target.supports .coveringIndexes = true
  predicate : index.predicate.isSome = true → target.supports .partialIndexes = true
  expressions : index.hasExpressions = true → target.supports .expressionIndexes = true
  ordering : index.method.isOrdered = false → index.keys.any IndexKey.hasOrdering = false

theorem succeeds_requireIndex :
    Succeeds (target.requireIndex index) ↔ target.TakesIndex index := by
  simp only [requireIndex, succeeds_guard, not_succeeds_unsupported, succeeds_require,
    succeeds_ite_unsupported, succeeds_pure, and_true, imp_false, Bool.not_eq_true',
    Bool.and_eq_true, List.isEmpty_iff, List.isEmpty_eq_false_iff, Bool.not_eq_false]
  constructor
  · intro holds
    rcases holds with ⟨keys, method, covering, predicate, expressions, ordering⟩
    refine ⟨keys, method, covering, predicate, expressions, fun unordered => ?_⟩
    exact Bool.eq_false_iff.mpr fun ordered => ordering ⟨unordered, ordered⟩
  · intro holds
    rcases holds with ⟨keys, method, covering, predicate, expressions, ordering⟩
    refine ⟨keys, method, covering, predicate, expressions, fun both => ?_⟩
    exact Bool.eq_false_iff.mp (ordering both.1) both.2

theorem succeeds_createIndexText :
    Succeeds (target.createIndexText index) ↔ target.TakesIndex index := by
  rw [createIndexText, succeeds_bind_of_total fun _ => succeeds_pure _, succeeds_requireIndex]

end SchemaDdl.Target
