import Attitude.Proofs.Rotation.Composition
import Attitude.Proofs.Rotation.Lengths
import Attitude.Proofs.Rotation.Pivot

/-!
# Parameters, their shadow set and their quaternions

Every rotation has two sets of parameters, and each set has a unit quaternion: that of the shadow
set is the opposite one. To go from parameters to their quaternion and back is to choose between the
two sets by the sign of the scalar part, and that sign tells whether the parameters lie in the unit
ball (`ofQuaternion_toQuaternion`). To go from a unit quaternion to parameters and back is to choose
the upper one of it and its opposite.

The way over the matrix leads to one of the two quaternions, whichever it is, and so to the set in
the unit ball as well. On the unit sphere it does not tell a point from the opposite one, because
there is no scalar part (`ofMat3_toMat3`).
-/

namespace Attitude.Rodrigues

open Partial

section Field

variable {K : Type} [Field K] [LinearOrder K] [IsStrictOrderedRing K] {eps : K} (r : Vec3 K)

/-! ## There and back -/

/-- The scalar part of the quaternion and the squared length of the parameters determine each other.
-/
theorem one_add_w_toQuaternion : 1 + (toQuaternion r).w = 2 / (1 + r.dot r) := by
  have h := one_add_dot_self_ne_zero r
  rw [toQuaternion_eq]
  field_simp
  ring

/-- Parameters are the vector part of their quaternion by one plus its scalar part. -/
theorem sdiv_toQuaternion : (toQuaternion r).vec.sdiv (1 + (toQuaternion r).w) = r := by
  have h := one_add_dot_self_ne_zero r
  rw [one_add_w_toQuaternion, toQuaternion_eq]
  ext <;> simp only [Quaternion.vec, Vec3.sdiv, Vec3.map] <;> field_simp

/-- From parameters to their quaternion and back is the choice of the set in the unit ball. -/
theorem ofQuaternion_toQuaternion (heps : eps ≤ 1) :
    ofQuaternion (toQuaternion r) = shadowIfOutside eps r := by
  have hw : 1 + (toQuaternion r).w ≠ 0 := by
    rw [one_add_w_toQuaternion]
    exact div_ne_zero two_ne_zero (one_add_dot_self_ne_zero r)
  rw [← shadowIfOutside_sdiv heps (isUnit_toQuaternion r) hw, sdiv_toQuaternion]

/-- What is wrapped lies in the unit ball. -/
theorem dot_self_shadowIfOutside_le (heps : eps ≤ 1) :
    (shadowIfOutside eps r).dot (shadowIfOutside eps r) ≤ 1 := by
  rw [← ofQuaternion_toQuaternion r heps]
  exact dot_self_ofQuaternion_le (isUnit_toQuaternion r)

/-- Opposite quaternions have the same parameters, unless there is no scalar part. -/
theorem ofQuaternion_neg {q : Quaternion K} (hw : q.w ≠ 0) :
    ofQuaternion (-q) = ofQuaternion q := by
  rw [ofQuaternion, Quaternion.upper_neg q hw]
  rfl

/-! ## Undefined quotients -/

/-- The matrix of parameters is defined for all parameters. -/
theorem toMat3_value : toMat3 (r.map value) = (toMat3 r).map value := by
  have hden : sq (lit 1 + r.dot r) ≠ 0 := by
    rw [lit_one]
    exact mul_self_ne_zero.2 (one_add_dot_self_ne_zero r)
  ext <;> exact congrArg (value _ + ·) (value_div hden)

end Field

/-! ## The way over the matrix -/

section Real

variable {eps : ℝ} {r : Vec3 ℝ}

/-- Only parameters of length one are half turns. -/
theorem w_toQuaternion_ne_zero (hr : r.norm ≠ 1) : (toQuaternion r).w ≠ 0 := by
  have hdot : r.dot r ≠ 1 := fun h => hr (Vec3.norm_of_unit h)
  rw [toQuaternion_eq]
  exact div_ne_zero (sub_ne_zero.2 hdot.symm) (one_add_dot_self_ne_zero r)

/-- From parameters to their matrix and back is the choice of the set in the unit ball, too. -/
theorem ofMat3_toMat3 (heps : eps ≤ 1) (hr : r.norm ≠ 1) :
    ofMat3 (toMat3 r) = shadowIfOutside eps r := by
  rw [← ofQuaternion_toQuaternion r heps, ofMat3, toMat3_eq]
  obtain hsame | hopposite := Quaternion.ofMat3_toMat3 (isUnit_toQuaternion r)
  · rw [hsame]
  · rw [hopposite, ofQuaternion_neg (w_toQuaternion_ne_zero hr)]

/-- The parameters of a matrix are always defined, as its quaternion is. -/
theorem ofMat3_value (m : Mat3 ℝ) : ofMat3 (m.map value) = (ofMat3 m).map value := by
  rw [ofMat3, Quaternion.ofMat3_value, ofQuaternion_value]
  rfl

end Real

/-! ## All ways -/

/-- **Parameters and quaternions.** The quaternion of parameters is a unit quaternion with their
matrix, and leads back to that set of the two that lies in the unit ball, which has the same matrix.
The parameters of a unit quaternion lie in the unit ball, and lead back to the upper one of it and
its opposite. The way over the matrix leads to the set in the unit ball, too, unless the parameters
lie on the unit sphere. No quotient on any of these ways is undefined. -/
theorem quaternions_of_parameters {K : Type} [Field K] [LinearOrder K] [IsStrictOrderedRing K]
    {eps : K} (hnonneg : 0 ≤ eps) (hle : eps ≤ 1) :
    (∀ r : Vec3 K,
      (toQuaternion r).toMat3 = toMat3 r ∧ (toQuaternion r).IsUnit ∧
      ofQuaternion (toQuaternion r) = shadowIfOutside eps r ∧
      (shadowIfOutside eps r).dot (shadowIfOutside eps r) ≤ 1 ∧
      toMat3 (shadowIfOutside eps r) = toMat3 r ∧
      toMat3 (r.map value) = (toMat3 r).map value ∧
      ofQuaternion (toQuaternion (r.map value)) = (shadowIfOutside eps r).map value ∧
      shadowIfOutside (value eps) (r.map value) = (shadowIfOutside eps r).map value) ∧
    (∀ q : Quaternion K, q.IsUnit →
      (ofQuaternion q).dot (ofQuaternion q) ≤ 1 ∧
      toQuaternion (ofQuaternion q) = (if 0 ≤ q.w then q else -q) ∧
      toQuaternion (ofQuaternion (q.map value)) = (if 0 ≤ q.w then q else -q).map value) ∧
    ∀ (eps : ℝ) (r : Vec3 ℝ), eps ≤ 1 → r.norm ≠ 1 →
      ofMat3 (toMat3 r) = shadowIfOutside eps r ∧
      ofMat3 (toMat3 (r.map value)) = (shadowIfOutside eps r).map value := by
  refine ⟨fun r => ?_, fun q hq => ?_, fun eps r heps hr => ?_⟩
  · have hback := ofQuaternion_toQuaternion r hle
    refine ⟨(toMat3_eq r).symm, isUnit_toQuaternion r, hback, dot_self_shadowIfOutside_le r hle,
      toMat3_shadowIfOutside r hnonneg, toMat3_value r, ?_, shadowIfOutside_value r hnonneg⟩
    rw [toQuaternion_value, ofQuaternion_value, hback]
  · have hback := toQuaternion_ofQuaternion hq
    rw [q.upper_eq_ite_nonneg] at hback
    refine ⟨dot_self_ofQuaternion_le hq, hback, ?_⟩
    rw [ofQuaternion_value, toQuaternion_value, hback]
  · have hback := ofMat3_toMat3 heps hr
    refine ⟨hback, ?_⟩
    rw [toMat3_value, ofMat3_value, hback]

/-- Parameters outside of the unit ball, and a unit quaternion that is not an upper one. -/
theorem quaternions_of_outerParameters :
    let eps : ℚ := 1 / 10 ^ 7
    let r : Vec3 ℚ := ⟨2, 0, 0⟩
    let q : Quaternion ℚ := ⟨-3 / 5, 0, 4 / 5, 0⟩
    let s : Vec3 ℝ := ⟨2, 0, 0⟩
    0 ≤ eps ∧ eps ≤ 1 ∧ q.IsUnit ∧ s.norm ≠ 1 ∧
      toQuaternion r = ⟨-3 / 5, 4 / 5, 0, 0⟩ ∧ ofQuaternion (toQuaternion r) = ⟨-1 / 2, 0, 0⟩ ∧
      toMat3 ⟨-1 / 2, 0, 0⟩ = toMat3 r ∧ toQuaternion (ofQuaternion q) = -q ∧
      ofMat3 (toMat3 s) = ⟨-1 / 2, 0, 0⟩ := by
  intro eps r q s
  have hnonneg : 0 ≤ eps := by norm_num [eps]
  have hle : eps ≤ 1 := by norm_num [eps]
  have hunit : q.IsUnit := by norm_num [q, Quaternion.IsUnit, Quaternion.normSq]
  have hnorm : s.norm = 2 := Vec3.norm_of_dot_self zero_le_two (by norm_num [s, Vec3.dot_eq])
  -- these parameters lie outside of the unit ball, so their shadow set comes back
  have hinside : shadowIfOutside eps r = ⟨-1 / 2, 0, 0⟩ := by
    rw [shadowIfOutside_of_lt hle (by norm_num [r, Vec3.dot_eq])]
    ext <;> norm_num [r, Vec3.sdiv, Vec3.map, Vec3.neg_eq, Vec3.dot_eq]
  have hinside' : shadowIfOutside (1 / 10 ^ 7) s = ⟨-1 / 2, 0, 0⟩ := by
    rw [shadowIfOutside_of_lt (by norm_num) (by norm_num [s, Vec3.dot_eq])]
    ext <;> norm_num [s, Vec3.sdiv, Vec3.map, Vec3.neg_eq, Vec3.dot_eq]
  have hquaternion : toQuaternion r = ⟨-3 / 5, 4 / 5, 0, 0⟩ := by
    rw [toQuaternion_eq]
    ext <;> norm_num [r, Vec3.dot_eq]
  obtain ⟨hparameters, hquaternions, hmatrices⟩ := quaternions_of_parameters hnonneg hle
  obtain ⟨-, -, hback, -, hmatrix, -⟩ := hparameters r
  obtain ⟨-, hopposite, -⟩ := hquaternions q hunit
  have hne : s.norm ≠ 1 := by norm_num [hnorm]
  obtain ⟨hover, -⟩ := hmatrices (1 / 10 ^ 7) s (by norm_num) hne
  rw [hinside] at hback hmatrix
  rw [if_neg (by norm_num [q])] at hopposite
  exact ⟨hnonneg, hle, hunit, hne, hquaternion, hback, hmatrix, hopposite, hover.trans hinside'⟩

end Attitude.Rodrigues
