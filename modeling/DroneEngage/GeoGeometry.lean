import DroneEngage.GeoProjection
import DroneEngage.Rotations
import Mathlib.Analysis.SpecialFunctions.Trigonometric.Arctan
import Mathlib.Tactic.Positivity

/-!
# The geometry of the projection

Over the real numbers a ray keeps its length through mount and attitude, and the
range on the ground is the side of a right triangle whose other side is the depth.
-/

namespace DroneEngage

open GeoNumber Matrix Rotations

-- the operations of the real numbers are found first
attribute [local instance] Real.instAdd Real.instSub Real.instMul DivInvMonoid.toDiv Real.instNeg

noncomputable instance : GeoNumber ℝ where
  toAdd := inferInstance
  toSub := inferInstance
  toMul := inferInstance
  toDiv := inferInstance
  toNeg := inferInstance
  decimal digits places := digits / 10 ^ places
  fabs := abs
  lt a b := decide (a < b)
  le a b := decide (a ≤ b)
  eq a b := decide (a = b)

theorem decimal_real (digits places : Nat) :
    (decimal digits places : ℝ) = digits / 10 ^ places :=
  rfl

theorem lt_real_eq_false_iff {a b : ℝ} : lt a b = false ↔ b ≤ a :=
  decide_eq_false_iff_not.trans not_lt

theorem le_real_eq_false_iff {a b : ℝ} : le a b = false ↔ b < a :=
  decide_eq_false_iff_not.trans not_le

/-- `sqrt` is exact, and a sine and a cosine are a point of the circle. -/
structure CMath.Exact (cmath : CMath ℝ) : Prop where
  sqrt : ∀ x, 0 ≤ x → cmath.sqrt x = √x
  circle : ∀ angle, cmath.sin angle ^ 2 + cmath.cos angle ^ 2 = 1

theorem CMath.Exact.sqrt_squares {cmath : CMath ℝ} (exact : cmath.Exact) (a b : ℝ) :
    cmath.sqrt (a * a + b * b) = √(a * a + b * b) :=
  exact.sqrt _ (add_nonneg (mul_self_nonneg a) (mul_self_nonneg b))

section Rays

variable {cmath : CMath ℝ} (exact : cmath.Exact) (r p y : ℝ) (v : GeoVec3 ℝ)

theorem squares_nonneg : 0 ≤ v 0 * v 0 + v 1 * v 1 + v 2 * v 2 :=
  add_nonneg (add_nonneg (mul_self_nonneg _) (mul_self_nonneg _)) (mul_self_nonneg _)

/-- The ray of the camera goes forward by 1. -/
theorem one_le_norm_geoRayCamera (u w : ℝ) (cam : GeoCameraParams ℝ) :
    1 ≤ ‖WithLp.toLp 2 (geoRayCamera cmath u w cam)‖ := by
  have forward : geoRayCamera cmath u w cam 2 = 1 := by
    unfold geoRayCamera
    dsimp only
    split <;> simp [whole, decimal]
  rw [norm_eq_sqrt_dotProduct, dotProduct_three, Real.one_le_sqrt, forward]
  nlinarith [mul_self_nonneg (geoRayCamera cmath u w cam 0),
    mul_self_nonneg (geoRayCamera cmath u w cam 1)]

def CMath.Exact.turn (angle : ℝ) : Turn ℝ :=
  ⟨cmath.sin angle, cmath.cos angle, exact.circle angle⟩

/-- `geoRot` is the product of the three turns. -/
theorem geoRot_eq :
    geoRot cmath r p y v =
      (aboutZ (exact.turn y) * aboutY (exact.turn p) * aboutX (exact.turn r)) *ᵥ v := by
  ext i
  fin_cases i <;>
    simp [geoRot, CMath.Exact.turn, aboutX, aboutY, aboutZ, Matrix.mulVec, dotProduct,
      Fin.sum_univ_three, Matrix.mul_apply] <;> ring

include exact

theorem norm_geoRot : ‖WithLp.toLp 2 (geoRot cmath r p y v)‖ = ‖WithLp.toLp 2 v‖ := by
  rw [geoRot_eq exact]
  apply norm_mulVec
  exact transpose_mul_mul
    (transpose_mul_mul (transpose_mul_aboutZ _) (transpose_mul_aboutY _)) (transpose_mul_aboutX _)

/-- The axes of the camera are those of the body in another order. -/
theorem norm_geoRayBody (mount : GeoMountParams ℝ) :
    ‖WithLp.toLp 2 (geoRayBody cmath v mount)‖ = ‖WithLp.toLp 2 v‖ := by
  rw [geoRayBody, norm_geoRot exact, norm_eq_sqrt_dotProduct, norm_eq_sqrt_dotProduct,
    dotProduct_three, dotProduct_three]
  congr 1
  dsimp
  ring

theorem norm_geoRayNED (att : GeoAttitude ℝ) :
    ‖WithLp.toLp 2 (geoRayNED cmath v att)‖ = ‖WithLp.toLp 2 v‖ :=
  norm_geoRot exact _ _ _ v

theorem one_le_norm_rayNed (u w : ℝ) (cam : GeoCameraParams ℝ) (mount : GeoMountParams ℝ)
    (att : GeoAttitude ℝ) : 1 ≤ ‖WithLp.toLp 2 (rayNed cmath u w cam mount att)‖ := by
  rw [rayNed, norm_geoRayNED exact, norm_geoRayBody exact]
  exact one_le_norm_geoRayCamera u w cam

/-- `n` is the length of the ray. -/
theorem rayLength_eq_norm : rayLength cmath v = ‖WithLp.toLp 2 v‖ := by
  rw [norm_eq_sqrt_dotProduct, dotProduct_three]
  exact exact.sqrt _ (squares_nonneg v)

end Rays

section Ranges

variable {cmath : CMath ℝ}

/-- The parts of the unit ray on the ground and down are a right triangle. -/
theorem unitRay_sq {ray : GeoVec3 ℝ} {n : ℝ} (length : n = ‖WithLp.toLp 2 ray‖) (long : 1 ≤ n) :
    (ray 0 / n) ^ 2 + (ray 1 / n) ^ 2 + (ray 2 / n) ^ 2 = 1 := by
  have positive : n ≠ 0 := by positivity
  have square : n ^ 2 = ray 0 * ray 0 + ray 1 * ray 1 + ray 2 * ray 2 := by
    rw [length, norm_eq_sqrt_dotProduct, dotProduct_three, Real.sq_sqrt (squares_nonneg ray)]
  field_simp
  rw [square]
  ring

/-- The range grows as the ray comes nearer to the horizon. -/
theorem range_le {depth down range bound : ℝ} (deep : 0 < depth) (above : 0 < bound)
    (small : bound ≤ 1) (below : bound ≤ down)
    (triangle : range ^ 2 + depth ^ 2 = (depth / down) ^ 2) :
    range ≤ depth * √(1 - bound ^ 2) / bound := by
  have downPositive : 0 < down := lt_of_lt_of_le above below
  have steeper : (depth / down) ^ 2 ≤ (depth / bound) ^ 2 := by gcongr
  have root : √(1 - bound ^ 2) ^ 2 = 1 - bound ^ 2 := by
    apply Real.sq_sqrt
    nlinarith
  have square : range ^ 2 ≤ (depth * √(1 - bound ^ 2) / bound) ^ 2 :=
    calc
      range ^ 2 = (depth / down) ^ 2 - depth ^ 2 := by linarith
      _ ≤ (depth / bound) ^ 2 - depth ^ 2 := by linarith
      _ = (depth * √(1 - bound ^ 2) / bound) ^ 2 := by
        rw [div_pow, div_pow, mul_pow, root]
        field_simp
  exact le_of_sq_le_sq square (by positivity)

/-- The range on the ground that a direction and a depth give. -/
theorem groundRange_sq {rn re rd depth : ℝ} (unit : rn ^ 2 + re ^ 2 + rd ^ 2 = 1)
    (down : 0 < rd) :
    √(depth / rd * rn * (depth / rd * rn) + depth / rd * re * (depth / rd * re)) ^ 2 + depth ^ 2 =
      (depth / rd) ^ 2 := by
  have nonneg := add_nonneg (mul_self_nonneg (depth / rd * rn)) (mul_self_nonneg (depth / rd * re))
  have side : (depth / rd) ^ 2 * rd ^ 2 = depth ^ 2 := by field_simp
  rw [Real.sq_sqrt nonneg]
  calc
    _ = (depth / rd) ^ 2 * (rn ^ 2 + re ^ 2) + depth ^ 2 := by ring
    _ = (depth / rd) ^ 2 * (rn ^ 2 + re ^ 2 + rd ^ 2) := by rw [← side]; ring
    _ = (depth / rd) ^ 2 := by rw [unit, mul_one]

/-- Rotations keep lengths, so that every ray has a direction, and a projected point
lies at the range that the depth and the direction of its ray give, which the least
angle below the horizon bounds. -/
theorem projection_sound (exact : cmath.Exact) (u v boxW boxH : ℝ) (cam : GeoCameraParams ℝ)
    (mount : GeoMountParams ℝ) (att : GeoAttitude ℝ) (pose : GeoPose ℝ)
    (sigmaAttDeg sigmaAltM rangefinderM : ℝ) :
    let ray := rayNed cmath u v cam mount att
    let rd := rayDown cmath ray
    let depth := depthUsed rd pose.relAltM rangefinderM
    let result := geoProjectToGround cmath u v boxW boxH cam mount att pose sigmaAttDeg sigmaAltM
      rangefinderM
    let m : ℝ := 0.0871557427
    (∀ r p y w, geoRot cmath r p y w =
          (aboutZ (exact.turn y) * aboutY (exact.turn p) * aboutX (exact.turn r)) *ᵥ w ∧
        ‖WithLp.toLp 2 (geoRot cmath r p y w)‖ = ‖WithLp.toLp 2 w‖) ∧
      1 ≤ ‖WithLp.toLp 2 ray‖ ∧
      lt (rayLength cmath ray) (decimal 1 9) = false ∧
      (result.ok = true →
        result.groundRangeM ^ 2 + depth ^ 2 = (depth / rd) ^ 2 ∧
          result.groundRangeM ≤ depth * √(1 - m ^ 2) / m) := by
  intro ray rd depth result m
  have long := one_le_norm_rayNed exact u v cam mount att
  have length := rayLength_eq_norm exact ray
  have notShort : lt (rayLength cmath ray) (decimal 1 9) = false := by
    rw [length, lt_real_eq_false_iff, decimal_real]
    exact le_trans (by norm_num) long
  refine ⟨fun r p y w => ⟨geoRot_eq exact r p y w, norm_geoRot exact r p y w⟩, long, notShort, ?_⟩
  intro ok
  obtain ⟨-, steep, deep⟩ := passed_of_ok cmath ok
  have range := (@geoProjectToGround_of_passed _ _ cmath u v boxW boxH cam mount att pose
    sigmaAttDeg sigmaAltM rangefinderM _ _ _ _ rfl rfl rfl rfl notShort steep deep).2
  have bound : m ≤ rd := by
    rw [lt_real_eq_false_iff, minDown, decimal_real] at steep
    exact le_trans (by norm_num [m]) steep
  have positive : 0 < depth := by
    rw [le_real_eq_false_iff, whole, decimal_real] at deep
    exact lt_of_le_of_lt (by norm_num) deep
  have unit := unitRay_sq length (length ▸ long)
  have down : 0 < rd := lt_of_lt_of_le (by norm_num) bound
  have triangle : result.groundRangeM ^ 2 + depth ^ 2 = (depth / rd) ^ 2 := by
    rw [range.trans (exact.sqrt_squares _ _)]
    exact groundRange_sq unit down
  exact ⟨triangle, range_le positive (by norm_num) (by norm_num) bound triangle⟩

/-- The functions of the real numbers. -/
noncomputable def CMath.real : CMath ℝ where
  sqrt := Real.sqrt
  sin := Real.sin
  cos := Real.cos
  tan := Real.tan
  atan := Real.arctan

theorem CMath.exact_real : CMath.real.Exact where
  sqrt _ _ := rfl
  circle := Real.sin_sq_add_cos_sq

/-- A camera that looks ahead from a vehicle with its nose at 45 degrees below the horizon,
10 m above the ground, sees a point 10 m away. -/
theorem projection_sound_noseDown :
    let mount : GeoMountParams ℝ := ⟨0, 0, 0⟩
    let att : GeoAttitude ℝ := ⟨0, -(Real.pi / 4), 0⟩
    let result := geoProjectToGround CMath.real 0 0 0 0 .default mount att ⟨0, 0, 10⟩ 0 0 (-1)
    result.ok = true ∧ result.groundRangeM ^ 2 = 10 ^ 2 := by
  intro mount att result
  have sound := projection_sound CMath.exact_real 0 0 0 0 .default mount att ⟨0, 0, 10⟩ 0 0 (-1)
  have camera : geoRayCamera CMath.real 0 0 .default = ![0, 0, 1] := by
    have undistorted : (eq (whole 0 : ℝ) (whole 0) && eq (whole 0 : ℝ) (whole 0)) = true := by
      rw [Bool.and_self]
      exact decide_eq_true rfl
    refine (if_pos undistorted).trans ?_
    simp [whole, decimal_real]
  have level : geoDeg2Rad (0 : ℝ) = 0 := by simp [geoDeg2Rad]
  have body : geoRayBody CMath.real ![0, 0, 1] mount = ![1, 0, 0] := by
    simp [geoRayBody, geoRot, mount, level, CMath.real]
  have ray : rayNed CMath.real 0 0 .default mount att = ![√2 / 2, 0, √2 / 2] := by
    rw [rayNed, camera, body]
    simp [geoRayNED, geoRot, att, CMath.real]
  have half : (√2 / 2 : ℝ) ^ 2 = 1 / 2 := by
    rw [div_pow, Real.sq_sqrt (by norm_num)]
    norm_num
  have length : rayLength CMath.real ![√2 / 2, 0, √2 / 2] = 1 := by
    have sum : √2 / 2 * (√2 / 2) + √2 / 2 * (√2 / 2) = 1 := by linarith
    simp [rayLength, CMath.real, sum]
  have down : rayDown CMath.real ![√2 / 2, 0, √2 / 2] = √2 / 2 := by simp [rayDown, length]
  have depth : depthUsed (√2 / 2 : ℝ) 10 (-1) = 10 := by
    have noRangefinder : lt (whole 0 : ℝ) (-1) = false := by
      rw [lt_real_eq_false_iff, whole, decimal_real]
      norm_num
    rw [depthUsed, noRangefinder]
    rfl
  have steep : (1 / 2 : ℝ) ≤ √2 / 2 := by
    have root : (1 : ℝ) ≤ √2 := Real.one_le_sqrt.mpr (by norm_num)
    linarith
  have ok : result.ok = true := by
    refine (geoProjectToGround_of_passed CMath.real ray length down depth ?_ ?_ ?_).1
    · rw [lt_real_eq_false_iff, decimal_real]
      norm_num
    · rw [lt_real_eq_false_iff, minDown, decimal_real]
      exact le_trans (by norm_num) steep
    · rw [le_real_eq_false_iff, whole, decimal_real]
      norm_num
  have triangle := (sound.2.2.2 ok).1
  rw [ray, down, depth, div_pow, half] at triangle
  exact ⟨ok, by linarith⟩

end Ranges

end DroneEngage
