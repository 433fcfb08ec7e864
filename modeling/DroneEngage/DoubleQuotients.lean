import DroneEngage.CpuMonitor
import DroneEngage.DoubleArithmetic
import Mathlib.Algebra.Order.Field.Power
import Mathlib.Algebra.Order.Floor.Semifield
import Mathlib.Data.Rat.Floor
import Mathlib.Tactic.FieldSimp
import Mathlib.Tactic.Linarith
import Mathlib.Tactic.Positivity
import Mathlib.Tactic.Ring

/-!
# The integer part of a quotient of doubles

A quotient is rounded before its integer part is taken.  Below `2 ^ 53` every
integer is a double, and so rounding does not fall below the integer part of the
exact quotient.
-/

namespace DroneEngage.Double

def value : Double → ℚ
  | finite negative significand exponent =>
      (if negative then -1 else 1) * significand * 2 ^ exponent
  | _ => 0

/-- The bits below `2 ^ 53` that are dropped are those that `base` puts behind the point. -/
theorem log2_le_of_div_lt {magnitude base bits : Nat}
    (small : magnitude / 2 ^ base < 2 ^ bits) (nonzero : magnitude ≠ 0) :
    Nat.log2 magnitude < base + bits := by
  rw [Nat.log2_lt nonzero, pow_add, mul_comm]
  exact (Nat.div_lt_iff_lt_mul (Nat.two_pow_pos base)).mp small

theorem truncate_finite (significand shift : Nat) :
    (finite false significand (-shift)).truncate =
      some ((significand / 2 ^ shift : Nat) : Int) := by
  unfold truncate
  cases shift with
  | zero => simp
  | succ shift =>
      have negative : ¬ (0 : Int) ≤ -(shift + 1 : Nat) := by omega
      simp only [if_neg negative, Bool.false_eq_true, if_false, neg_neg, Int.toNat_natCast]
      norm_cast

theorem div_succ_le (number shift : Nat) :
    (number + 1) / 2 ^ shift ≤ number / 2 ^ shift + 1 := by
  rw [← Nat.add_div_right _ (Nat.two_pow_pos shift)]
  apply Nat.div_le_div_right
  have := Nat.two_pow_pos shift
  omega

/-- Below `2 ^ 53` rounding keeps the integer part or moves up to the next one. -/
theorem truncate_round {magnitude base : Nat} (small : magnitude / 2 ^ base < 2 ^ 53) :
    ∃ whole : Nat, (round false magnitude (-base)).truncate = some (whole : Int) ∧
      magnitude / 2 ^ base ≤ whole ∧ whole ≤ magnitude / 2 ^ base + 1 := by
  have width : Nat.log2 magnitude ≤ base + 52 := by
    by_cases zero : magnitude = 0
    · simp [zero]
    · have := log2_le_of_div_lt small zero
      omega
  unfold round
  generalize drops : max (Nat.log2 magnitude - 52) (-1074 - -(base : Int)).toNat = dropped
  have atMostBase : dropped ≤ base := by omega
  have keptWidth : magnitude / 2 ^ dropped < 2 ^ 53 := by
    apply (Nat.div_lt_iff_lt_mul (Nat.two_pow_pos dropped)).mpr
    calc
      magnitude < 2 ^ (Nat.log2 magnitude + 1) := Nat.lt_log2_self
      _ ≤ 2 ^ (53 + dropped) := Nat.pow_le_pow_right (by decide) (by omega)
      _ = 2 ^ 53 * 2 ^ dropped := pow_add ..
  obtain ⟨lower, upper⟩ := nearestUnits_bounds magnitude dropped
  dsimp only
  generalize nearestUnits magnitude dropped = significand at lower upper ⊢
  have significandWidth : significand ≠ 0 → Nat.log2 significand < 54 := by
    intro nonzero
    rw [Nat.log2_lt nonzero]
    omega
  rw [if_neg (by omega)]
  obtain ⟨shift, rfl⟩ := Nat.exists_eq_add_of_le atMostBase
  have exponent : -((dropped + shift : Nat) : Int) + dropped = -(shift : Int) := by
    push_cast
    ring
  rw [exponent]
  refine ⟨significand / 2 ^ shift, truncate_finite significand shift, ?_, ?_⟩
  · rw [pow_add, ← Nat.div_div_eq_div_mul]
    exact Nat.div_le_div_right lower
  · rw [pow_add, ← Nat.div_div_eq_div_mul]
    calc
      significand / 2 ^ shift ≤ (magnitude / 2 ^ dropped + 1) / 2 ^ shift :=
        Nat.div_le_div_right upper
      _ ≤ magnitude / 2 ^ dropped / 2 ^ shift + 1 := div_succ_le _ shift

theorem quotientBits_div {dividend significand base whole : Nat}
    (above : whole * (significand * 2 ^ (base + 1)) ≤
      dividend * 2 ^ (Nat.log2 significand + 55) * 2)
    (below : dividend * 2 ^ (Nat.log2 significand + 55) * 2 <
      (whole + 1) * (significand * 2 ^ (base + 1))) :
    quotientBits dividend significand / 2 ^ (base + 1) = whole := by
  have positive : 0 < significand := by
    rcases Nat.eq_zero_or_pos significand with rfl | positive
    · simp at below
    · exact positive
  unfold quotientBits
  generalize dividend * 2 ^ (Nat.log2 significand + 55) = scaled at above below ⊢
  have units : ∀ number, number * (significand * 2 ^ (base + 1)) =
      number * 2 ^ base * significand * 2 := by
    intro number
    ring
  rw [units] at above below
  have atLeast : whole * 2 ^ base ≤ scaled / significand :=
    (Nat.le_div_iff_mul_le positive).mpr (Nat.le_of_mul_le_mul_right above two_pos)
  have lessThan : scaled / significand < (whole + 1) * 2 ^ base :=
    (Nat.div_lt_iff_lt_mul positive).mpr (Nat.lt_of_mul_lt_mul_right below)
  rw [pow_succ, add_one_mul] at *
  dsimp only
  apply Nat.div_eq_of_lt_le
  · rw [← mul_assoc]
    split <;> omega
  · rw [add_one_mul, ← mul_assoc]
    split <;> omega

/-- A quotient below `2 ^ 53` has bits behind the point among those that are looked at. -/
theorem exists_base {significand : Nat} {exponent : Int}
    (bound : (1 : ℚ) < 2 ^ 53 * (significand * 2 ^ exponent)) :
    ∃ base : Nat, exponent + (Nat.log2 significand + 56 : Nat) = (base + 1 : Nat) := by
  obtain ⟨base, same⟩ | tooSmall : (∃ base : Nat,
      exponent + (Nat.log2 significand + 56 : Nat) = (base + 1 : Nat)) ∨
        exponent ≤ -(Nat.log2 significand + 56 : Nat) := by
    rcases le_or_gt exponent (-(Nat.log2 significand + 56 : Nat)) with small | large
    · exact .inr small
    · exact .inl ⟨(exponent + (Nat.log2 significand + 56 : Nat) - 1).toNat, by omega⟩
  · exact ⟨base, same⟩
  · exfalso
    have width : (significand : ℚ) < 2 ^ (Nat.log2 significand + 1) := by
      exact_mod_cast Nat.lt_log2_self
    have powers : (2 : ℚ) ^ exponent ≤ 2 ^ (-((Nat.log2 significand + 56 : Nat) : Int)) :=
      zpow_le_zpow_right₀ one_le_two tooSmall
    have product : (2 : ℚ) ^ 53 * (significand * 2 ^ exponent) ≤
        2 ^ 53 * (2 ^ (Nat.log2 significand + 1) *
          2 ^ (-((Nat.log2 significand + 56 : Nat) : Int))) := by
      gcongr
    have value : (2 : ℚ) ^ 53 * (2 ^ (Nat.log2 significand + 1) *
          2 ^ (-((Nat.log2 significand + 56 : Nat) : Int))) = 2 ^ 53 / 2 ^ 55 := by
      rw [zpow_neg, zpow_natCast, pow_add, pow_add]
      field_simp
    rw [value] at product
    have := bound.trans_le product
    norm_num at this

/-- The integer part of a rounded quotient is that of the exact one or the next. -/
theorem truncate_div {dividend significand whole : Nat} {dividendExponent exponent : Int}
    (something : 0 < dividend) (positive : 0 < significand)
    (floor : ⌊(dividend : ℚ) / (significand * 2 ^ (exponent - dividendExponent))⌋₊ = whole)
    (small : whole < 2 ^ 53) :
    ∃ quotient : Nat, ((finite false dividend dividendExponent).div
        (finite false significand exponent)).truncate = some (quotient : Int) ∧
      whole ≤ quotient ∧ quotient ≤ whole + 1 := by
  have exponents : dividendExponent - exponent = -(exponent - dividendExponent) := by ring
  rw [div, if_neg positive.ne', exponents]
  generalize exponent - dividendExponent = exponent at floor ⊢
  have positiveQ : (0 : ℚ) < significand * 2 ^ exponent := by positivity
  have lower : (whole : ℚ) * (significand * 2 ^ exponent) ≤ dividend := by
    rw [← le_div_iff₀ positiveQ, ← floor]
    exact Nat.floor_le (by positivity)
  have upper : (dividend : ℚ) < (whole + 1) * (significand * 2 ^ exponent) := by
    rw [← div_lt_iff₀ positiveQ, ← floor]
    exact Nat.lt_floor_add_one _
  obtain ⟨base, sameBase⟩ : ∃ base : Nat,
      exponent + (Nat.log2 significand + 56 : Nat) = (base + 1 : Nat) := by
    apply exists_base
    calc
      (1 : ℚ) ≤ dividend := by exact_mod_cast something
      _ < (whole + 1) * (significand * 2 ^ exponent) := upper
      _ ≤ 2 ^ 53 * (significand * 2 ^ exponent) := by
        gcongr
        exact_mod_cast small
  have scale : (2 : ℚ) ^ exponent * 2 ^ (Nat.log2 significand + 56) = 2 ^ (base + 1) := by
    rw [← zpow_natCast, ← zpow_natCast, ← zpow_add₀ two_ne_zero, sameBase]
  have above : whole * (significand * 2 ^ (base + 1)) ≤
      dividend * 2 ^ (Nat.log2 significand + 55) * 2 := by
    rw [mul_assoc dividend, ← pow_succ]
    have scaled := mul_le_mul_of_nonneg_right lower
      (by positivity : (0 : ℚ) ≤ 2 ^ (Nat.log2 significand + 56))
    rw [mul_assoc, mul_assoc, scale] at scaled
    exact_mod_cast scaled
  have below : dividend * 2 ^ (Nat.log2 significand + 55) * 2 <
      (whole + 1) * (significand * 2 ^ (base + 1)) := by
    rw [mul_assoc dividend, ← pow_succ]
    have scaled := mul_lt_mul_of_pos_right upper
      (by positivity : (0 : ℚ) < 2 ^ (Nat.log2 significand + 56))
    rw [mul_assoc, mul_assoc, scale] at scaled
    exact_mod_cast scaled
  have bits := quotientBits_div above below
  have rounded := truncate_round (bits.trans_lt small)
  rw [bits] at rounded
  have units : -exponent - ((Nat.log2 significand : Int) + 56) = -((base + 1 : Nat) : Int) := by
    rw [← sameBase]
    push_cast
    ring
  rw [units]
  exact rounded

end DroneEngage.Double
