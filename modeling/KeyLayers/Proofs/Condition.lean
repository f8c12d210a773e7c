import KeyLayers.Condition
import KeyLayers.Proofs.Repetition
import Mathlib.Order.Defs.LinearOrder

/-!
# Sets of conditions

Conditions are in a linear order, so each set of conditions has one sorted form:
two lists of conditions have the same one exactly if they hold the same
conditions, in whatever order and however often (`Condition.sortedSet_eq_iff`).
-/

namespace KeyLayers

namespace Condition

variable {condition : Condition} {conditions others : List Condition}

/-! ## Order -/

theorem compare_eq : compare =
    compareLex (compareOn rank) (compareLex (compareOn variableName)
      (compareLex (compareOn comparedValue) (compareOn patterns))) := rfl

instance : Std.TransCmp compare := by
  rw [compare_eq]
  infer_instance

theorem eq_of_compare {left right : Condition} (same : left.compare right = .eq) :
    left = right := by
  simp only [compare, Ordering.then_eq_eq, Std.LawfulEqOrd.compare_eq_iff_eq] at same
  rcases same with ⟨ranks, names, values, patterns⟩
  cases left <;> cases right <;>
    simp_all [rank, variableName, comparedValue, Condition.patterns]

theorem le_trans (first second third : Condition) (before : first.le second = true)
    (after : second.le third = true) : first.le third = true :=
  Std.TransCmp.isLE_trans before after

theorem le_total (left right : Condition) : (left.le right || right.le left) = true := by
  have swapped : right.compare left = (left.compare right).swap := Std.OrientedCmp.eq_swap
  rw [le, le, swapped]
  cases left.compare right <;> rfl

theorem le_antisymm (left right : Condition) (before : left.le right = true)
    (after : right.le left = true) : left = right :=
  eq_of_compare (Std.OrientedCmp.isLE_antisymm before after)

/-! ## The sorted form of a set -/

/-- The sorted form of a set of conditions holds the conditions of the set. -/
theorem mem_sortedSet : condition ∈ sortedSet conditions ↔ condition ∈ conditions := by
  rw [sortedSet, mem_eraseReps, sort]
  exact (List.mergeSort_perm conditions le).mem_iff

theorem pairwise_sortedSet (conditions : List Condition) :
    (sortedSet conditions).Pairwise fun left right =>
      left.le right = true ∧ left ≠ right :=
  pairwise_eraseReps le_antisymm (List.pairwise_mergeSort le_trans le_total conditions)

/-- A set of conditions has one sorted form. -/
theorem sortedSet_eq_iff :
    sortedSet conditions = sortedSet others ↔
      ∀ condition, condition ∈ conditions ↔ condition ∈ others := by
  constructor
  · intro same condition
    rw [← mem_sortedSet, same, mem_sortedSet]
  · intro same
    have sorted := pairwise_sortedSet conditions
    have sorted' := pairwise_sortedSet others
    have perm : (sortedSet conditions).Perm (sortedSet others) := by
      rw [List.perm_ext_iff_of_nodup (sorted.imp And.right) (sorted'.imp And.right)]
      intro condition
      rw [mem_sortedSet, mem_sortedSet, same]
    apply perm.eq_of_pairwise _ (sorted.imp And.left) (sorted'.imp And.left)
    intro left right _ _
    exact le_antisymm left right

end Condition

end KeyLayers
