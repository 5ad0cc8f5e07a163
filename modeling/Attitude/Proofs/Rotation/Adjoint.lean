import Attitude.Proofs.Rotation.MatrixLogarithm

/-!
# The adjoint of rotations

A rotation moves vectors, and it moves the skew-symmetric matrices of vectors by conjugation. Both
are the same action (`IsRotation.hat_mulVec`): every entry of a rotation is the minor that belongs
to it, with its sign, so a reflection does not do.

The exponential goes along with the action (`toMat3_mulVec`), because its coefficients depend on
nothing but the length of a vector, which a rotation keeps.
-/

namespace Attitude

section Ring

variable {R : Type} [CommRing R]

namespace Mat3

variable (m : Mat3 R) (v w : Vec3 R)

/-- The product with a vector by its entries. -/
theorem mulVec_eq : m.mulVec v =
    ⟨m.xx * v.x + m.xy * v.y + m.xz * v.z, m.yx * v.x + m.yy * v.y + m.yz * v.z,
     m.zx * v.x + m.zy * v.y + m.zz * v.z⟩ := by
  ext <;> exact Vec3.dot_eq _ _

end Mat3

/-! ## Skew-symmetric matrices -/

/-- The skew-symmetric matrix of a vector by its entries. -/
theorem Vec3.hat_eq (v : Vec3 R) : v.hat = ⟨0, -v.z, v.y, v.z, 0, -v.x, -v.y, v.x, 0⟩ := by
  ext <;> simp only [hat, lit_zero]

namespace Mat3

/-- The matrix is skew-symmetric: its sum with its transpose is zero. -/
def IsSkewSymmetric (m : Mat3 R) : Prop := m.skewDefect = ⟨0, 0, 0, 0, 0, 0, 0, 0, 0⟩

/-- The matrix of a vector is skew-symmetric. -/
theorem isSkewSymmetric_hat (v : Vec3 R) : v.hat.IsSkewSymmetric := by
  ext <;> simp only [skewDefect, add_eq, transpose, Vec3.hat_eq] <;> ring

/-- A skew-symmetric matrix of real numbers is known from three of its entries. -/
theorem IsSkewSymmetric.hat_vee {m : Mat3 ℝ} (h : m.IsSkewSymmetric) : m.vee.hat = m := by
  simp only [IsSkewSymmetric, skewDefect, add_eq, transpose, mk.injEq] at h
  obtain ⟨hxx, hxy, hxz, -, hyy, hyz, -, -, hzz⟩ := h
  rw [Vec3.hat_eq]
  ext <;> simp only [vee] <;> linarith

/-- The commutator of two skew-symmetric matrices is that of the vector product. -/
theorem vee_commutator (v w : Vec3 R) :
    (v.hat * w.hat - w.hat * v.hat).vee = v.hat.mulVec w := by
  ext <;> simp only [vee, mulVec_eq, sub_eq, mul_eq, Vec3.hat_eq] <;> ring

/-! ## The action of a rotation -/

namespace IsRotation

variable {m : Mat3 R}

/-- A rotation keeps scalar products. -/
theorem dot_mulVec (h : m.IsRotation) (v w : Vec3 R) :
    (m.mulVec v).dot (m.mulVec w) = v.dot w := by
  have e := h.entries
  simp only [Vec3.dot_eq, mulVec_eq]
  linear_combination v.x * w.x * e.col₁ + v.y * w.y * e.col₂ + v.z * w.z * e.col₃ +
    (v.x * w.y + v.y * w.x) * e.col₁₂ + (v.x * w.z + v.z * w.x) * e.col₁₃ +
    (v.y * w.z + v.z * w.y) * e.col₂₃

/-- The vector is moved by the rotation as its skew-symmetric matrix is by conjugation. -/
theorem hat_mulVec (h : m.IsRotation) (v : Vec3 R) :
    (m.mulVec v).hat = m * v.hat * m.transpose := by
  have e := h.entries
  ext <;> simp only [Vec3.hat_eq, mulVec_eq, mul_eq, Mat3.transpose]
  · ring
  · linear_combination -v.x * e.zx - v.y * e.zy - v.z * e.zz
  · linear_combination v.x * e.yx + v.y * e.yy + v.z * e.yz
  · linear_combination v.x * e.zx + v.y * e.zy + v.z * e.zz
  · ring
  · linear_combination -v.x * e.xx - v.y * e.xy - v.z * e.xz
  · linear_combination -v.x * e.yx - v.y * e.yy - v.z * e.yz
  · linear_combination v.x * e.xx + v.y * e.xy + v.z * e.xz
  · ring

/-- Conjugation with a rotation is multiplicative, as the transpose cancels the matrix in between.
-/
theorem conjugate_mul (h : m.IsRotation) (a b : Mat3 R) :
    m * a * m.transpose * (m * b * m.transpose) = m * (a * b) * m.transpose :=
  calc m * a * m.transpose * (m * b * m.transpose)
      = m * a * (m.transpose * m) * b * m.transpose := by simp only [mul_assoc]
    _ = m * (a * b) * m.transpose := by rw [h.orthogonal, mul_one, mul_assoc m]

/-- Conjugation with a rotation leaves the identity where it is. -/
theorem conjugate_one (h : m.IsRotation) : m * 1 * m.transpose = 1 := by
  rw [mul_one, h.mul_transpose]

end IsRotation

/-- Conjugation is additive, for any matrix. -/
theorem conjugate_add (m a b : Mat3 R) :
    m * (a + b) * m.transpose = m * a * m.transpose + m * b * m.transpose := by
  ext <;> simp only [mul_eq, add_eq, transpose] <;> ring

/-- Conjugation commutes with multiples, for any matrix. -/
theorem conjugate_smul (m a : Mat3 R) (k : R) :
    m * a.smul k * m.transpose = (m * a * m.transpose).smul k := by
  ext <;> simp only [mul_eq, smul, map, transpose] <;> ring

end Mat3

end Ring

/-! ## The exponential -/

namespace Mat3.IsRotation

variable {m : Mat3 ℝ}

/-- A rotation keeps lengths. -/
theorem norm_mulVec (h : m.IsRotation) (v : Vec3 ℝ) : (m.mulVec v).norm = v.norm := by
  rw [Vec3.norm_eq, h.dot_mulVec, Vec3.norm_eq]

/-- A combination is moved with its vector. Its coefficients may be any numbers. -/
theorem combination_mulVec (h : m.IsRotation) (v : Vec3 ℝ) (a b : ℝ) :
    RotationVector.combination (m.mulVec v) a b =
      m * RotationVector.combination v a b * m.transpose :=
  calc RotationVector.combination (m.mulVec v) a b
      = 1 + (m * v.hat * m.transpose).smul a + (m * (v.hat * v.hat) * m.transpose).smul b := by
        rw [RotationVector.combination, h.hat_mulVec, h.conjugate_mul]
    _ = m * RotationVector.combination v a b * m.transpose := by
        rw [RotationVector.combination, conjugate_add, conjugate_add, h.conjugate_one,
          conjugate_smul, conjugate_smul]

/-- The matrix of a vector is moved with the vector, also where it is no rotation itself. -/
theorem toMat3_mulVec (h : m.IsRotation) (v : Vec3 ℝ) :
    RotationVector.toMat3 (m.mulVec v) = m * RotationVector.toMat3 v * m.transpose := by
  rw [RotationVector.toMat3_eq, h.norm_mulVec, h.combination_mulVec, RotationVector.toMat3_eq]

end Mat3.IsRotation

end Attitude
