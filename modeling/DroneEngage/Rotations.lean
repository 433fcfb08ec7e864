import Mathlib.Analysis.InnerProductSpace.PiL2
import Mathlib.LinearAlgebra.Matrix.Notation
import Mathlib.Tactic.LinearCombination
import Mathlib.Tactic.Ring

/-!
# Rotations about the axes

A turn is given by its sine and its cosine, a point of the unit circle.  The
matrices of turns about the axes are orthogonal, and so are their products, which
therefore keep the length of every vector.
-/

namespace DroneEngage.Rotations

open Matrix

structure Turn (R : Type*) [CommRing R] where
  sin : R
  cos : R
  circle : sin ^ 2 + cos ^ 2 = 1

section Matrices

variable {R : Type*} [CommRing R] (turn : Turn R)

def aboutX : Matrix (Fin 3) (Fin 3) R :=
  !![1, 0, 0; 0, turn.cos, -turn.sin; 0, turn.sin, turn.cos]

def aboutY : Matrix (Fin 3) (Fin 3) R :=
  !![turn.cos, 0, turn.sin; 0, 1, 0; -turn.sin, 0, turn.cos]

def aboutZ : Matrix (Fin 3) (Fin 3) R :=
  !![turn.cos, -turn.sin, 0; turn.sin, turn.cos, 0; 0, 0, 1]

theorem transpose_mul_aboutX : (aboutX turn)ᵀ * aboutX turn = 1 := by
  ext i j
  fin_cases i <;> fin_cases j <;> simp [aboutX, Matrix.mul_apply, Fin.sum_univ_three] <;>
    first | ring1 | linear_combination turn.circle

theorem transpose_mul_aboutY : (aboutY turn)ᵀ * aboutY turn = 1 := by
  ext i j
  fin_cases i <;> fin_cases j <;> simp [aboutY, Matrix.mul_apply, Fin.sum_univ_three] <;>
    first | ring1 | linear_combination turn.circle

theorem transpose_mul_aboutZ : (aboutZ turn)ᵀ * aboutZ turn = 1 := by
  ext i j
  fin_cases i <;> fin_cases j <;> simp [aboutZ, Matrix.mul_apply, Fin.sum_univ_three] <;>
    first | ring1 | linear_combination turn.circle

theorem dotProduct_three (v : Fin 3 → R) : v ⬝ᵥ v = v 0 * v 0 + v 1 * v 1 + v 2 * v 2 := by
  simp [dotProduct, Fin.sum_univ_three]

end Matrices

section Lengths

variable {R ι : Type*} [CommRing R] [Fintype ι] [DecidableEq ι] {A B : Matrix ι ι R}

theorem transpose_mul_mul (first : Aᵀ * A = 1) (second : Bᵀ * B = 1) :
    (A * B)ᵀ * (A * B) = 1 := by
  rw [transpose_mul, Matrix.mul_assoc, ← Matrix.mul_assoc Aᵀ, first, Matrix.one_mul, second]

/-- An orthogonal matrix keeps the square of the length. -/
theorem dotProduct_mulVec_self (orthogonal : Aᵀ * A = 1) (v : ι → R) :
    (A *ᵥ v) ⬝ᵥ (A *ᵥ v) = v ⬝ᵥ v := by
  rw [dotProduct_mulVec, ← vecMul_transpose, vecMul_vecMul, orthogonal, vecMul_one]

omit [DecidableEq ι] in
theorem norm_eq_sqrt_dotProduct (v : ι → ℝ) : ‖WithLp.toLp 2 v‖ = √(v ⬝ᵥ v) := by
  rw [EuclideanSpace.norm_eq]
  simp [dotProduct, pow_two]

theorem norm_mulVec {A : Matrix ι ι ℝ} (orthogonal : Aᵀ * A = 1) (v : ι → ℝ) :
    ‖WithLp.toLp 2 (A *ᵥ v)‖ = ‖WithLp.toLp 2 v‖ := by
  rw [norm_eq_sqrt_dotProduct, norm_eq_sqrt_dotProduct, dotProduct_mulVec_self orthogonal]

end Lengths

end DroneEngage.Rotations
