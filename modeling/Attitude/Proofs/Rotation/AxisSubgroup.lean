import Attitude.Proofs.Rotation.MatrixLogarithm

/-!
# Rotations around one axis

The rotations around one axis add their angles (`Mat3.around_mul_around`), and whole turns make no
difference. Along the axis the exponential is these rotations (`RotationVector.toMat3_smul`): the
multiple of the axis is the angle, with its sign, although the coefficients are taken at the length
of the vector, which has none.

Near zero the matrix is that of a series and no rotation. So angles add wherever all of them are
zero or not near zero. The opposite vector has the transposed matrix everywhere (`toMat3_neg`),
because the coefficients are those of the vector itself.
-/

namespace Attitude

open Partial

variable {u : Vec3 ℝ}

/-! ## Angles around an axis -/

/-- Turns around one axis add up their angles, in quaternions by the addition formulas of half the
angles. -/
theorem Quaternion.around_mul_around (hu : u.dot u = 1) (s t : ℝ) :
    around u s * around u t = around u (s + t) := by
  rw [Vec3.dot_eq] at hu
  simp only [around_eq, mul_eq, add_div, Real.cos_add, Real.sin_add]
  ext <;> dsimp only
  -- the scalar part needs the length of the axis
  · linear_combination -(Real.sin (s / 2) * Real.sin (t / 2)) * hu
  · ring
  · ring
  · ring

/-- Turns around one axis add up their angles, in matrices as the matrix of a product is the
product. -/
theorem Mat3.around_mul_around (hu : u.dot u = 1) (s t : ℝ) :
    around u s * around u t = around u (s + t) := by
  rw [← Quaternion.toMat3_around hu s, ← Quaternion.toMat3_around hu t, ← Quaternion.toMat3_mul,
    Quaternion.around_mul_around hu, Quaternion.toMat3_around hu]

/-- Whole turns do not matter. -/
theorem Mat3.around_add_int_mul_two_pi (u : Vec3 ℝ) (t : ℝ) (k : ℤ) :
    around u (t + k * (2 * Real.pi)) = around u t := by
  simp only [around, Real.cos_add_int_mul_two_pi, Real.sin_add_int_mul_two_pi]

/-! ## The exponential along an axis -/

namespace RotationVector

/-- The opposite vector has the transposed matrix, whatever the coefficients are. -/
theorem combination_neg (v : Vec3 ℝ) (a b : ℝ) :
    combination (-v) a b = (combination v a b).transpose := by
  rw [combination_eq, combination_eq, Vec3.dot_neg_self]
  ext <;> simp only [Mat3.transpose, Vec3.neg_eq] <;> ring

/-- The opposite vector has the transposed matrix. This is so for the series, too, as the
coefficients are even. -/
theorem toMat3_neg (v : Vec3 ℝ) : toMat3 (-v) = (toMat3 v).transpose := by
  rw [toMat3_eq, toMat3_eq, Vec3.norm_neg, combination_neg]

/-- **Rotations around one axis.** Along an axis the exponential takes sums of angles to products,
and whole turns off the angle make no difference, where the angles are zero or not near zero. The
opposite vector has the transposed matrix everywhere. No undefined coefficient reaches the matrix,
that of the zero vector included. -/
theorem rotations_about_axis :
    (∀ a : Vec3 ℝ, a.dot a = 1 → ∀ s t : ℝ, (s = 0 ∨ 1 / 1000 ≤ |s|) → (t = 0 ∨ 1 / 1000 ≤ |t|) →
      (s + t = 0 ∨ 1 / 1000 ≤ |s + t|) →
      toMat3 (a.smul s) * toMat3 (a.smul t) = toMat3 (a.smul (s + t))) ∧
    (∀ a : Vec3 ℝ, a.dot a = 1 → ∀ (t : ℝ) (k : ℤ), (t = 0 ∨ 1 / 1000 ≤ |t|) →
      (t + k * (2 * Real.pi) = 0 ∨ 1 / 1000 ≤ |t + k * (2 * Real.pi)|) →
      toMat3 (a.smul (t + k * (2 * Real.pi))) = toMat3 (a.smul t)) ∧
    ∀ v : Vec3 ℝ, toMat3 (-v) = (toMat3 v).transpose ∧
      toMat3 (v.map value) = (toMat3 v).map value := by
  refine ⟨fun a ha s t hs ht hst => ?_, fun a ha t k ht hturns => ?_, fun v => ?_⟩
  · rw [toMat3_smul ha hs, toMat3_smul ha ht, toMat3_smul ha hst, Mat3.around_mul_around ha]
  · rw [toMat3_smul ha hturns, toMat3_smul ha ht, Mat3.around_add_int_mul_two_pi]
  · exact ⟨toMat3_neg v, toMat3_value v⟩

/-- Angles of both signs around a slanted axis, and a whole turn. -/
theorem rotations_about_slantedAxis :
    let a : Vec3 ℝ := ⟨3 / 5, 0, 4 / 5⟩
    a.dot a = 1 ∧ toMat3 (a.smul (-5)) * toMat3 (a.smul 2) = toMat3 (a.smul (-3)) ∧
      toMat3 (a.smul (2 * Real.pi)) = toMat3 (a.smul 0) ∧
      toMat3 (-a.smul (1 / 2000)) = (toMat3 (a.smul (1 / 2000))).transpose := by
  intro a
  have ha : a.dot a = 1 := by norm_num [a, Vec3.dot_eq]
  have hfar : 1 / 1000 ≤ |2 * Real.pi| := by
    rw [abs_of_pos Real.two_pi_pos]
    linarith [Real.pi_gt_three]
  obtain ⟨hsum, hturns, hneg⟩ := rotations_about_axis
  have hproduct := hsum a ha (-5) 2 (by norm_num) (by norm_num) (by norm_num)
  have hturn := hturns a ha (2 * Real.pi) (-1) (.inr hfar) (by norm_num)
  -- the angles that the two products have in the statement
  rw [show (-5 : ℝ) + 2 = -3 by norm_num] at hproduct
  rw [show 2 * Real.pi + ((-1 : ℤ) : ℝ) * (2 * Real.pi) = 0 by norm_num] at hturn
  exact ⟨ha, hproduct, hturn.symm, (hneg _).1⟩

end RotationVector

end Attitude
