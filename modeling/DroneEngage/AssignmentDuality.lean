import Mathlib.Algebra.BigOperators.Group.Finset.Basic
import Mathlib.Algebra.Order.BigOperators.Group.Finset
import Mathlib.Data.Fintype.BigOperators

/-!
# Potentials and cheapest assignments

Rows are assigned different columns at a cost for each pair.  Potentials of rows and
columns that never exceed the cost of a pair bound the cost of every assignment, so an
assignment that meets the bound is a cheapest one.
-/

namespace DroneEngage.AssignmentDuality

variable {Row Column Cost : Type*} [Fintype Row] [AddCommGroup Cost]
  [PartialOrder Cost] [IsOrderedAddMonoid Cost]

def total (cost : Row → Column → Cost) (chosen : Row → Column) : Cost :=
  ∑ row, cost row (chosen row)

def IsCheapest (cost : Row → Column → Cost) (chosen : Row → Column) : Prop :=
  ∀ other : Row → Column, Function.Injective other → total cost chosen ≤ total cost other

/-- Potentials that never exceed the cost of a pair.  Those of the columns only lower
the bound, and do not for a column without a row. -/
structure Certifies (cost : Row → Column → Cost) (u : Row → Cost) (v : Column → Cost)
    (chosen : Row → Column) : Prop where
  feasible : ∀ row column, u row + v column ≤ cost row column
  tight : ∀ row, u row + v (chosen row) = cost row (chosen row)
  nonpos : ∀ column, v column ≤ 0
  free : ∀ column, (∀ row, chosen row ≠ column) → v column = 0

variable {cost : Row → Column → Cost} {u : Row → Cost} {v : Column → Cost}
  {chosen : Row → Column} [Fintype Column]

omit [PartialOrder Cost] [IsOrderedAddMonoid Cost] in
/-- What the columns without a row add to the potentials of the others. -/
theorem sum_eq_sum_add_sum [DecidableEq Column] (v : Column → Cost) {other : Row → Column}
    (injective : Function.Injective other) :
    ∑ column, v column =
      ∑ column ∈ Finset.univ \ Finset.univ.image other, v column + ∑ row, v (other row) := by
  have image : ∑ column ∈ Finset.univ.image other, v column = ∑ row, v (other row) :=
    Finset.sum_image fun _ _ _ _ same => injective same
  rw [← image]
  exact (Finset.sum_sdiff (Finset.subset_univ _)).symm

/-- The potentials of some columns sum up to no less than those of all columns. -/
theorem sum_le_sum_of_injective (nonpos : ∀ column, v column ≤ 0) {other : Row → Column}
    (injective : Function.Injective other) : ∑ column, v column ≤ ∑ row, v (other row) := by
  classical
  rw [sum_eq_sum_add_sum v injective]
  exact add_le_of_nonpos_left (Finset.sum_nonpos fun column _ => nonpos column)

omit [IsOrderedAddMonoid Cost] in
theorem Certifies.sum_eq (certifies : Certifies cost u v chosen)
    (injective : Function.Injective chosen) :
    ∑ column, v column = ∑ row, v (chosen row) := by
  classical
  rw [sum_eq_sum_add_sum v injective, add_eq_right]
  apply Finset.sum_eq_zero
  intro column outside
  apply certifies.free
  intro row same
  exact (Finset.mem_sdiff.mp outside).2 (Finset.mem_image.mpr ⟨row, Finset.mem_univ row, same⟩)

/-- An assignment that meets the bound of its potentials is a cheapest one. -/
theorem Certifies.isCheapest (certifies : Certifies cost u v chosen)
    (injective : Function.Injective chosen) : IsCheapest cost chosen := by
  intro other otherInjective
  calc total cost chosen = ∑ row, (u row + v (chosen row)) :=
        Finset.sum_congr rfl fun row _ => (certifies.tight row).symm
    _ = ∑ row, u row + ∑ column, v column := by
        rw [Finset.sum_add_distrib, certifies.sum_eq injective]
    _ ≤ ∑ row, u row + ∑ row, v (other row) := by
        have bound := sum_le_sum_of_injective certifies.nonpos otherInjective
        gcongr
    _ = ∑ row, (u row + v (other row)) := Finset.sum_add_distrib.symm
    _ ≤ total cost other :=
        Finset.sum_le_sum fun row _ => certifies.feasible row (other row)

end DroneEngage.AssignmentDuality
