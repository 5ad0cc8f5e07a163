import Attitude.Proofs.Rotation.Lengths

/-!
# Rotations around an axis

The matrix of the rotation by an angle around a unit vector. It is the matrix of the unit quaternion
of half the angle, so it is a rotation.
-/

namespace Attitude

/-- The rotation by the angle `t` around the unit vector `a`. -/
noncomputable def Mat3.around (a : Vec3 ℝ) (t : ℝ) : Mat3 ℝ :=
  let c := Real.cos t
  let s := Real.sin t
  { xx := c + (1 - c) * (a.x * a.x)
    xy := (1 - c) * (a.x * a.y) - s * a.z
    xz := (1 - c) * (a.x * a.z) + s * a.y
    yx := (1 - c) * (a.y * a.x) + s * a.z
    yy := c + (1 - c) * (a.y * a.y)
    yz := (1 - c) * (a.y * a.z) - s * a.x
    zx := (1 - c) * (a.z * a.x) - s * a.y
    zy := (1 - c) * (a.z * a.y) + s * a.x
    zz := c + (1 - c) * (a.z * a.z) }

/-- The unit quaternion of the rotation by the angle `t` around the unit vector `a`. -/
noncomputable def Quaternion.around (a : Vec3 ℝ) (t : ℝ) : Quaternion ℝ :=
  ofParts (Real.cos (t / lit 2)) (a.smul (Real.sin (t / lit 2)))

variable {a : Vec3 ℝ}

/-- The quaternion of a turn by its four parts. -/
theorem Quaternion.around_eq (t : ℝ) : around a t =
    ⟨Real.cos (t / 2), Real.sin (t / 2) * a.x, Real.sin (t / 2) * a.y, Real.sin (t / 2) * a.z⟩ := by
  simp only [around, Nat.cast_ofNat]
  rfl

/-- The scalar part is the cosine of half the angle. -/
theorem Quaternion.w_around (t : ℝ) : (around a t).w = Real.cos (t / 2) := by
  rw [around_eq]

/-- The vector part is the axis times the sine of half the angle. -/
theorem Quaternion.vec_around (t : ℝ) : (around a t).vec = a.smul (Real.sin (t / 2)) := by
  rw [around_eq]
  rfl

/-- The length of the vector part is that sine, as it is not negative up to a half turn. -/
theorem Quaternion.norm_vec_around (ha : a.dot a = 1) {t : ℝ} (ht : 0 ≤ t) (htpi : t ≤ Real.pi) :
    (around a t).vec.norm = Real.sin (t / 2) := by
  have hnonneg : 0 ≤ Real.sin (t / 2) :=
    Real.sin_nonneg_of_nonneg_of_le_pi (by linarith) (by linarith)
  rw [vec_around, Vec3.norm_smul, Vec3.norm_of_unit ha, mul_one, abs_of_nonneg hnonneg]

/-- A rotation by at most a half turn has no negative scalar part. -/
theorem Quaternion.upper_around {t : ℝ} (ht : 0 ≤ t) (htpi : t ≤ Real.pi) :
    (around a t).upper = around a t := by
  have hcos : 0 ≤ Real.cos (t / 2) := Real.cos_nonneg_of_mem_Icc ⟨by linarith, by linarith⟩
  rw [upper_eq_ite, w_around, if_neg hcos.not_gt]

/-- A turn around a unit vector is a unit quaternion. -/
theorem Quaternion.isUnit_around (ha : a.dot a = 1) (t : ℝ) : (around a t).IsUnit := by
  rw [Vec3.dot_eq] at ha
  simp only [IsUnit, normSq, around_eq]
  linear_combination Real.sin (t / 2) ^ 2 * ha + Real.cos_sq_add_sin_sq (t / 2)

/-- The matrix of the quaternion of a turn is the matrix of the turn: the entries agree by the
double angle formulas. -/
theorem Quaternion.toMat3_around (ha : a.dot a = 1) (t : ℝ) :
    (around a t).toMat3 = .around a t := by
  have hunit := Real.cos_sq_add_sin_sq (t / 2)
  have hcos : Real.cos t = 2 * Real.cos (t / 2) ^ 2 - 1 := by
    rw [← Real.cos_two_mul, mul_div_cancel₀ t two_ne_zero]
  have hsin : Real.sin t = 2 * Real.sin (t / 2) * Real.cos (t / 2) := by
    rw [← Real.sin_two_mul, mul_div_cancel₀ t two_ne_zero]
  have hsq : 1 - Real.cos t = 2 * Real.sin (t / 2) ^ 2 := by linarith
  rw [Vec3.dot_eq] at ha
  rw [toMat3_eq, around_eq]
  ext <;> simp only [Mat3.around, hsq, hsin]
  -- the entries on the diagonal need the length of the axis
  · linear_combination Real.sin (t / 2) ^ 2 * -ha - hcos - hunit
  · ring
  · ring
  · ring
  · linear_combination Real.sin (t / 2) ^ 2 * -ha - hcos - hunit
  · ring
  · ring
  · ring
  · linear_combination Real.sin (t / 2) ^ 2 * -ha - hcos - hunit

/-- The matrix of a turn around a unit vector is a rotation. -/
theorem Mat3.isRotation_around (ha : a.dot a = 1) (t : ℝ) : (around a t).IsRotation := by
  rw [← Quaternion.toMat3_around ha]
  exact (Quaternion.isUnit_around ha t).isRotation

end Attitude
