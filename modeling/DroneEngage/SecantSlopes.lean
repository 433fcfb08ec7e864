import DroneEngage.LeastSquares
import Mathlib.Algebra.BigOperators.Fin
import Mathlib.Algebra.Order.Chebyshev
import Mathlib.Tactic.Linarith

/-!
# The slope of a regression line and the slopes of its secants

Where the points come in the order of their abscissas, and from each to the next the
ordinate grows at no more than a given rate, the regression line is no steeper than that
rate; and likewise for a rate from below.
-/

namespace DroneEngage.LeastSquares

/-- What never falls from an element to a later one never falls from a place to a later
one. -/
theorem monotone_get {Element Value : Type*} [Preorder Value] {elements : List Element}
    {quantity : Element → Value}
    (ordered : elements.Pairwise fun element next => quantity element ≤ quantity next) :
    Monotone fun index : Fin elements.length => quantity (elements.get index) := by
  intro index next order
  rcases order.lt_or_eq with before | rfl
  · exact List.pairwise_iff_get.mp ordered index next before
  · exact le_rfl

variable {K : Type*} [Field K]

/-- The ordinate less what a line of the given rate would have grown by. -/
def excess (rate : K) (point : K × K) : K :=
  point.2 - rate * point.1

theorem total_eq_sum (quantity : K → K → K) (points : List (K × K)) :
    total quantity points = ∑ index : Fin points.length,
      quantity (points.get index).1 (points.get index).2 :=
  (Fin.sum_univ_fun_getElem points fun point => quantity point.1 point.2).symm

theorem total_excess (rate : K) (weight : K → K → K) (points : List (K × K)) :
    total (fun x y => weight x y * (y - rate * x)) points =
      total (fun x y => weight x y * y) points -
        rate * total (fun x y => weight x y * x) points := by
  induction points with
  | nil => simp
  | cons point points ih =>
      simp only [total_cons, ih]
      ring

/-- What the regression slope is too large by comes from the excess over the rate. -/
theorem coSpread_sub (rate : K) (points : List (K × K)) :
    coSpread points - rate * spread points =
      points.length * total (fun x y => x * (y - rate * x)) points -
        total (fun x _ => x) points * total (fun x y => y - rate * x) points := by
  have products := total_excess rate (fun x _ => x) points
  have sums := total_excess rate (fun _ _ => 1) points
  simp only [one_mul] at sums
  rw [products, sums, coSpread, spread]
  ring

variable [LinearOrder K] [IsStrictOrderedRing K] {points : List (K × K)} {rate : K}

/-- From each point to the next the ordinate grows at most at the rate. -/
def GrowsAtMost (rate : K) (points : List (K × K)) : Prop :=
  points.IsChain fun point next => next.2 - point.2 ≤ rate * (next.1 - point.1)

/-- From each point to the next the ordinate grows at least at the rate. -/
def GrowsAtLeast (rate : K) (points : List (K × K)) : Prop :=
  points.IsChain fun point next => rate * (next.1 - point.1) ≤ next.2 - point.2

theorem GrowsAtLeast.monotone (grows : GrowsAtLeast rate points) :
    Monotone fun index : Fin points.length => excess rate (points.get index) := by
  apply monotone_get
  have chain : points.IsChain fun point next => excess rate point ≤ excess rate next := by
    apply List.IsChain.imp _ grows
    intro point next fast
    unfold excess
    linarith
  have : IsTrans (K × K) fun point next => excess rate point ≤ excess rate next :=
    ⟨fun _ _ _ => le_trans⟩
  exact chain.pairwise

theorem GrowsAtMost.antitone (grows : GrowsAtMost rate points) :
    Antitone fun index : Fin points.length => excess rate (points.get index) := by
  have falling : Monotone fun index : Fin points.length => -excess rate (points.get index) := by
    apply @monotone_get _ _ _ points fun point => -excess rate point
    have chain : points.IsChain fun point next => -excess rate point ≤ -excess rate next := by
      apply List.IsChain.imp _ grows
      intro point next slow
      unfold excess
      linarith
    have : IsTrans (K × K) fun point next => -excess rate point ≤ -excess rate next :=
      ⟨fun _ _ _ => le_trans⟩
    exact chain.pairwise
  intro index next order
  exact neg_le_neg_iff.mp (falling order)

/-- Chebyshev's inequality for the abscissas and the excess. -/
theorem coSpread_le (ordered : points.Pairwise fun point next => point.1 ≤ next.1)
    (grows : GrowsAtMost rate points) : coSpread points ≤ rate * spread points := by
  have opposite := (monotone_get ordered).antivary grows.antitone
  have sums := opposite.card_mul_sum_le_sum_mul_sum
  rw [Fintype.card_fin] at sums
  have difference := coSpread_sub rate points
  simp only [total_eq_sum] at difference
  unfold excess at sums
  linarith

theorem le_coSpread (ordered : points.Pairwise fun point next => point.1 ≤ next.1)
    (grows : GrowsAtLeast rate points) : rate * spread points ≤ coSpread points := by
  have alike := (monotone_get ordered).monovary grows.monotone
  have sums := alike.sum_mul_sum_le_card_mul_sum
  rw [Fintype.card_fin] at sums
  have difference := coSpread_sub rate points
  simp only [total_eq_sum] at difference
  unfold excess at sums
  linarith

/-- The regression line is no steeper than the steepest secant of neighbours. -/
theorem regressionSlope_le (ordered : points.Pairwise fun point next => point.1 ≤ next.1)
    (grows : GrowsAtMost rate points) (spreads : spread points ≠ 0) :
    regressionSlope points ≤ rate := by
  have positive := lt_of_le_of_ne (spread_nonneg points) spreads.symm
  rw [regressionSlope, div_le_iff₀ positive]
  exact coSpread_le ordered grows

/-- The regression line is at least as steep as the flattest secant of neighbours. -/
theorem le_regressionSlope (ordered : points.Pairwise fun point next => point.1 ≤ next.1)
    (grows : GrowsAtLeast rate points) (spreads : spread points ≠ 0) :
    rate ≤ regressionSlope points := by
  have positive := lt_of_le_of_ne (spread_nonneg points) spreads.symm
  rw [regressionSlope, le_div_iff₀ positive]
  exact le_coSpread ordered grows

end DroneEngage.LeastSquares
