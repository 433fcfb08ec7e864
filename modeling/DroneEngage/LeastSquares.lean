import Mathlib.Algebra.BigOperators.Ring.List
import Mathlib.Algebra.Order.Field.Basic
import Mathlib.Algebra.Order.Ring.Basic
import Mathlib.Tactic.FieldSimp
import Mathlib.Tactic.LinearCombination
import Mathlib.Tactic.Positivity
import Mathlib.Tactic.Ring

/-!
# Least squares

The line with the least sum of squared residuals over given points.  It is unique
where the points are not all above each other, and its slope is a quotient of sums.
-/

namespace DroneEngage.LeastSquares

variable {K : Type*} [Field K]

/-- A line that is not vertical. -/
structure Line (K : Type*) where
  intercept : K
  slope : K

def Line.height (line : Line K) (x : K) : K :=
  line.intercept + line.slope * x

/-- The sum of a quantity over points. -/
def total (quantity : K → K → K) (points : List (K × K)) : K :=
  (points.map fun point => quantity point.1 point.2).sum

/-- The sum of the squared residuals of a line. -/
def squaredResiduals (line : Line K) (points : List (K × K)) : K :=
  total (fun x y => (y - line.height x) ^ 2) points

/-- `n` times the sum of squares of the abscissas, less the square of their sum. -/
def spread (points : List (K × K)) : K :=
  points.length * total (fun x _ => x * x) points -
    total (fun x _ => x) points * total (fun x _ => x) points

def coSpread (points : List (K × K)) : K :=
  points.length * total (fun x y => x * y) points -
    total (fun x _ => x) points * total (fun _ y => y) points

def regressionSlope (points : List (K × K)) : K :=
  coSpread points / spread points

@[simp]
theorem total_nil (quantity : K → K → K) : total quantity [] = 0 :=
  rfl

@[simp]
theorem total_cons (quantity : K → K → K) (point : K × K) (points : List (K × K)) :
    total quantity (point :: points) = quantity point.1 point.2 + total quantity points := by
  simp [total]

/-- The residuals of a line in terms of the sums over the points. -/
theorem squaredResiduals_eq (line : Line K) (points : List (K × K)) :
    squaredResiduals line points =
      total (fun _ y => y * y) points - 2 * line.intercept * total (fun _ y => y) points -
        2 * line.slope * total (fun x y => x * y) points +
        points.length * line.intercept ^ 2 +
        2 * line.intercept * line.slope * total (fun x _ => x) points +
        line.slope ^ 2 * total (fun x _ => x * x) points := by
  unfold squaredResiduals Line.height
  induction points with
  | nil => simp
  | cons point points ih =>
      rw [total_cons, ih]
      simp only [total_cons, List.length_cons, Nat.cast_add, Nat.cast_one]
      ring

/-- The squared heights of a line over the points. -/
theorem total_height_sq (line : Line K) (points : List (K × K)) :
    total (fun x _ => line.height x ^ 2) points =
      points.length * line.intercept ^ 2 +
        2 * line.intercept * line.slope * total (fun x _ => x) points +
        line.slope ^ 2 * total (fun x _ => x * x) points := by
  unfold Line.height
  induction points with
  | nil => simp
  | cons point points ih =>
      rw [total_cons, ih]
      simp only [total_cons, List.length_cons, Nat.cast_add, Nat.cast_one]
      ring

theorem total_abscissa_of_const {points : List (K × K)} {abscissa : K}
    (above : ∀ point ∈ points, point.1 = abscissa) :
    total (fun x _ => x) points = points.length * abscissa := by
  induction points with
  | nil => simp
  | cons point points ih =>
      obtain ⟨here, later⟩ := List.forall_mem_cons.mp above
      rw [total_cons, ih later, here, List.length_cons, Nat.cast_add, Nat.cast_one]
      ring

theorem ne_nil_of_spread {points : List (K × K)} (spreads : spread points ≠ 0) :
    points ≠ [] := by
  rintro rfl
  exact spreads (by simp [spread])

section Ordered

variable [LinearOrder K] [IsStrictOrderedRing K] {points : List (K × K)} {line : Line K}

/-- A line whose residuals no other line makes smaller. -/
def IsLeastSquares (best : Line K) (points : List (K × K)) : Prop :=
  ∀ line, squaredResiduals best points ≤ squaredResiduals line points

theorem total_height_sq_nonneg (line : Line K) (points : List (K × K)) :
    0 ≤ total (fun x _ => line.height x ^ 2) points := by
  apply List.sum_nonneg
  intro value member
  obtain ⟨point, -, rfl⟩ := List.mem_map.mp member
  positivity

theorem total_height_sq_eq_zero_iff :
    total (fun x _ => line.height x ^ 2) points = 0 ↔
      ∀ point ∈ points, line.height point.1 = 0 := by
  induction points with
  | nil => simp
  | cons point points ih =>
      rw [total_cons, add_eq_zero_iff_of_nonneg (sq_nonneg _) (total_height_sq_nonneg line points),
        ih, List.forall_mem_cons, sq_eq_zero_iff]

theorem length_pos_of_ne_nil (nonempty : points ≠ []) : (0 : K) < points.length :=
  Nat.cast_pos.mpr (List.length_pos_iff.mpr nonempty)

/-- The line that crosses the axis at the mean abscissa. -/
def throughMean (points : List (K × K)) : Line K where
  intercept := -(total (fun x _ => x) points / points.length)
  slope := 1

theorem spread_eq (nonempty : points ≠ []) :
    spread points =
      points.length * total (fun x _ => (throughMean points).height x ^ 2) points := by
  have positive := (length_pos_of_ne_nil nonempty).ne'
  rw [total_height_sq, spread, throughMean]
  field_simp
  ring

theorem spread_nonneg (points : List (K × K)) : 0 ≤ spread points := by
  by_cases nonempty : points = []
  · simp [nonempty, spread]
  · rw [spread_eq nonempty]
    exact mul_nonneg (length_pos_of_ne_nil nonempty).le (total_height_sq_nonneg _ points)

/-- The spread is zero exactly where all points are above each other. -/
theorem spread_eq_zero_iff :
    spread points = 0 ↔ ∀ point ∈ points, ∀ other ∈ points, point.1 = other.1 := by
  by_cases nonempty : points = []
  · simp [nonempty, spread]
  have positive := (length_pos_of_ne_nil nonempty).ne'
  rw [spread_eq nonempty, mul_eq_zero_iff_left positive, total_height_sq_eq_zero_iff]
  unfold throughMean Line.height
  dsimp only
  constructor
  · intro atMean point listed other listedOther
    linear_combination atMean point listed - atMean other listedOther
  · intro above point listed
    rw [total_abscissa_of_const fun other listedOther => above other listedOther point listed]
    field_simp
    ring

/-- The line through the mean point with the slope of the regression. -/
def regressionLine (points : List (K × K)) : Line K where
  intercept :=
    (total (fun _ y => y) points - regressionSlope points * total (fun x _ => x) points) /
      points.length
  slope := regressionSlope points

def Line.sub (line other : Line K) : Line K where
  intercept := line.intercept - other.intercept
  slope := line.slope - other.slope

/-- How much worse a line is than the regression line. -/
theorem squaredResiduals_eq_add (spreads : spread points ≠ 0) (line : Line K) :
    squaredResiduals line points =
      squaredResiduals (regressionLine points) points +
        total (fun x _ => (line.sub (regressionLine points)).height x ^ 2) points := by
  have positive := (length_pos_of_ne_nil (ne_nil_of_spread spreads)).ne'
  -- the normal equations
  have mean : points.length * (regressionLine points).intercept +
      (regressionLine points).slope * total (fun x _ => x) points =
        total (fun _ y => y) points := by
    unfold regressionLine
    field_simp
    ring
  have slope : (regressionLine points).slope * spread points = coSpread points :=
    div_mul_cancel₀ _ spreads
  have moment : (regressionLine points).intercept * total (fun x _ => x) points +
      (regressionLine points).slope * total (fun x _ => x * x) points =
        total (fun x y => x * y) points := by
    unfold spread coSpread at slope
    apply mul_left_cancel₀ positive
    linear_combination slope + total (fun x _ => x) points * mean
  rw [squaredResiduals_eq, squaredResiduals_eq, total_height_sq]
  unfold Line.sub
  linear_combination 2 * (line.intercept - (regressionLine points).intercept) * mean +
    2 * (line.slope - (regressionLine points).slope) * moment

/-- The regression line is the only one with the least sum of squares. -/
theorem isLeastSquares_iff (spreads : spread points ≠ 0) :
    IsLeastSquares line points ↔ line = regressionLine points := by
  constructor
  · intro least
    have excess := squaredResiduals_eq_add spreads line
    have bound := least (regressionLine points)
    have nothing :
        total (fun x _ => (line.sub (regressionLine points)).height x ^ 2) points = 0 := by
      rw [excess, add_le_iff_nonpos_right] at bound
      exact le_antisymm bound (total_height_sq_nonneg _ points)
    have apart := mt spread_eq_zero_iff.mpr spreads
    push Not at apart
    obtain ⟨point, listed, other, listedOther, distinct⟩ := apart
    have here := total_height_sq_eq_zero_iff.mp nothing point listed
    have there := total_height_sq_eq_zero_iff.mp nothing other listedOther
    unfold Line.sub Line.height at here there
    have sameSlope : line.slope = (regressionLine points).slope := by
      apply sub_eq_zero.mp
      apply (mul_eq_zero_iff_right (sub_ne_zero.mpr distinct)).mp
      linear_combination here - there
    have sameIntercept : line.intercept = (regressionLine points).intercept := by
      linear_combination here - point.1 * sameSlope
    cases line
    cases best : regressionLine points
    rw [best] at sameSlope sameIntercept
    simpa using ⟨sameIntercept, sameSlope⟩
  · rintro rfl other
    rw [squaredResiduals_eq_add spreads other]
    exact le_add_of_nonneg_right (total_height_sq_nonneg _ points)

end Ordered

section Invariance

/-- Points with their abscissas and ordinates shifted. -/
def shift (along up : K) (points : List (K × K)) : List (K × K) :=
  points.map fun point => (point.1 + along, point.2 + up)

variable (along up : K) (points : List (K × K))

theorem total_shift (quantity : K → K → K) :
    total quantity (shift along up points) =
      total (fun x y => quantity (x + along) (y + up)) points := by
  simp [total, shift, Function.comp_def]

theorem total_add_const (quantity : K → K → K) (offset : K) :
    total (fun x y => quantity x y + offset) points =
      total quantity points + points.length * offset := by
  induction points with
  | nil => simp
  | cons point points ih =>
      rw [total_cons, total_cons, ih, List.length_cons, Nat.cast_add, Nat.cast_one]
      ring

theorem total_mul_add_const (first second : K → K → K) (offset offset' : K) :
    total (fun x y => (first x y + offset) * (second x y + offset')) points =
      total (fun x y => first x y * second x y) points + offset' * total first points +
        offset * total second points + points.length * (offset * offset') := by
  induction points with
  | nil => simp
  | cons point points ih =>
      rw [total_cons, ih]
      simp only [total_cons, List.length_cons, Nat.cast_add, Nat.cast_one]
      ring

theorem spread_shift : spread (shift along up points) = spread points := by
  unfold spread
  rw [total_shift, total_shift, total_mul_add_const, total_add_const]
  simp only [shift, List.length_map]
  ring

theorem coSpread_shift : coSpread (shift along up points) = coSpread points := by
  unfold coSpread
  rw [total_shift, total_shift, total_shift, total_mul_add_const, total_add_const,
    total_add_const]
  simp only [shift, List.length_map]
  ring

theorem regressionSlope_shift :
    regressionSlope (shift along up points) = regressionSlope points := by
  rw [regressionSlope, regressionSlope, spread_shift, coSpread_shift]

theorem total_mul_height (line : Line K) (weight : K → K → K) :
    total (fun x y => weight x y * line.height x) points =
      line.intercept * total weight points +
        line.slope * total (fun x y => weight x y * x) points := by
  unfold Line.height
  induction points with
  | nil => simp
  | cons point points ih =>
      rw [total_cons, ih]
      simp only [total_cons]
      ring

variable {points}

/-- Points on a line have its slope. -/
theorem regressionSlope_of_onLine {line : Line K}
    (onLine : ∀ point ∈ points, point.2 = line.height point.1) (spreads : spread points ≠ 0) :
    regressionSlope points = line.slope := by
  have same (weight : K → K → K) : total (fun x y => weight x y * y) points =
      total (fun x y => weight x y * line.height x) points := by
    unfold total
    congr 1
    exact List.map_congr_left fun point listed => by rw [onLine point listed]
  have ones : total (fun _ _ => 1) points = points.length := by simp [total]
  have heights := (same fun _ _ => 1).trans (total_mul_height points line fun _ _ => 1)
  have moments := (same fun x _ => x).trans (total_mul_height points line fun x _ => x)
  simp only [one_mul, ones] at heights
  rw [regressionSlope, div_eq_iff spreads, coSpread, spread, heights, moments]
  ring

end Invariance

end DroneEngage.LeastSquares
