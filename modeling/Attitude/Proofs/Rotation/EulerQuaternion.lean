import Attitude.Proofs.Grid.Shapes
import Attitude.Proofs.Rotation.EulerAngles
import Attitude.Proofs.Rotation.Pivot

/-!
# The quaternion of Euler angles

Angles are three turns around the axes of coordinates, and their quaternion is the product of the
quaternions of these turns (`toQuaternion_eq_mul`), as their matrix is the product of the matrices.
So the double angles are dealt with once, around any axis, and the matrix of the product is known
from the matrices of the factors (`toMat3_toQuaternion`).

Every rotation has two unit quaternions. The direct way from the angles and the way over the matrix
lead to one or the other, also where the angles are not determined by the matrix.
-/

namespace Attitude

open Partial

/-! ## Rotations around the axes of coordinates -/

namespace Mat3

/-- The rotation by the angle `t` around the first axis. -/
noncomputable def aroundX (t : ℝ) : Mat3 ℝ :=
  ⟨1, 0, 0, 0, Real.cos t, -Real.sin t, 0, Real.sin t, Real.cos t⟩

/-- The rotation by the angle `t` around the second axis. -/
noncomputable def aroundY (t : ℝ) : Mat3 ℝ :=
  ⟨Real.cos t, 0, Real.sin t, 0, 1, 0, -Real.sin t, 0, Real.cos t⟩

/-- The rotation by the angle `t` around the third axis. -/
noncomputable def aroundZ (t : ℝ) : Mat3 ℝ :=
  ⟨Real.cos t, -Real.sin t, 0, Real.sin t, Real.cos t, 0, 0, 0, 1⟩

/-- The turn around the first axis by half angles. -/
theorem around_x (t : ℝ) : around ⟨1, 0, 0⟩ t = aroundX t := by
  ext <;> simp only [around, aroundX] <;> ring

/-- The turn around the second axis by half angles. -/
theorem around_y (t : ℝ) : around ⟨0, 1, 0⟩ t = aroundY t := by
  ext <;> simp only [around, aroundY] <;> ring

/-- The turn around the third axis by half angles. -/
theorem around_z (t : ℝ) : around ⟨0, 0, 1⟩ t = aroundZ t := by
  ext <;> simp only [around, aroundZ] <;> ring

end Mat3

namespace EulerAngles

variable (e : EulerAngles ℝ)

/-! ## Three turns -/

/-- The quaternion of angles is a product of three turns: around the third axis, the second and the
first. -/
theorem toQuaternion_eq_mul : e.toQuaternion =
    .around ⟨0, 0, 1⟩ e.yaw * .around ⟨0, 1, 0⟩ e.pitch * .around ⟨1, 0, 0⟩ e.roll := by
  ext <;> simp only [toQuaternion, Quaternion.around_eq, Quaternion.mul_eq, cos_eq, sin_eq,
    Nat.cast_ofNat] <;> ring

/-- The quaternion of any angles is a unit quaternion. -/
theorem isUnit_toQuaternion : e.toQuaternion.IsUnit := by
  rw [toQuaternion_eq_mul]
  have hx := Quaternion.isUnit_around Vec3.dot_x e.roll
  have hy := Quaternion.isUnit_around Vec3.dot_y e.pitch
  have hz := Quaternion.isUnit_around Vec3.dot_z e.yaw
  exact (hz.mul hy).mul hx

/-- The quaternion of angles has their matrix, also in the lock: both are products of the same
turns. -/
theorem toMat3_toQuaternion : e.toQuaternion.toMat3 = e.toMat3 := by
  rw [toQuaternion_eq_mul, Quaternion.toMat3_mul, Quaternion.toMat3_mul,
    Quaternion.toMat3_around Vec3.dot_x, Quaternion.toMat3_around Vec3.dot_y,
    Quaternion.toMat3_around Vec3.dot_z, toMat3_eq_mul]

/-- The way over the matrix finds the quaternion again, up to its sign. -/
theorem toQuaternion_eq_or_eq_neg : e.toQuaternion = Quaternion.ofMat3 e.toMat3 ∨
    e.toQuaternion = -Quaternion.ofMat3 e.toMat3 := by
  have hfits := e.isUnit_toQuaternion.fits
  rw [toMat3_toQuaternion] at hfits
  exact (Quaternion.fits_ofMat3 e.isRotation_toMat3).eq_or_eq_neg hfits

/-! ## Undefined quotients -/

/-- No quotients are taken on the way to the matrix, so nothing is undefined. -/
theorem toMat3_value : (e.map value).toMat3 = e.toMat3.map value := rfl

/-- No quotients but those by two are taken on the way to the quaternion. -/
theorem toQuaternion_value : (e.map value).toQuaternion = e.toQuaternion.map value := by
  have hhalf (x : ℝ) : value x / lit 2 = value (x / lit 2) := value_div_lit x two_ne_zero
  simp only [toQuaternion, map, hhalf]
  rfl

/-! ## Both ways -/

/-- **The quaternion of angles.** The matrix of angles is the product of the turns around the third,
the second and the first axis. Their quaternion is a unit quaternion with the same matrix, so it is
the quaternion of that matrix or its opposite, whatever the pitch is. No undefined root or quotient
reaches a result on either way. -/
theorem quaternion_of_angles :
    e.toMat3 = .aroundZ e.yaw * .aroundY e.pitch * .aroundX e.roll ∧
    e.toQuaternion.IsUnit ∧ e.toQuaternion.toMat3 = e.toMat3 ∧
    (e.toQuaternion = Quaternion.ofMat3 e.toMat3 ∨
      e.toQuaternion = -Quaternion.ofMat3 e.toMat3) ∧
    (e.map value).toQuaternion = e.toQuaternion.map value ∧
    Quaternion.ofMat3 (e.map value).toMat3 = (Quaternion.ofMat3 e.toMat3).map value := by
  refine ⟨?_, e.isUnit_toQuaternion, e.toMat3_toQuaternion, e.toQuaternion_eq_or_eq_neg,
    e.toQuaternion_value, ?_⟩
  · rw [toMat3_eq_mul, Mat3.around_x, Mat3.around_y, Mat3.around_z]
  · rw [toMat3_value, Quaternion.ofMat3_value]

end EulerAngles

end Attitude
