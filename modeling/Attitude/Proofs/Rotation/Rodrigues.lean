import Attitude.Proofs.Rotation.Quaternion
import Attitude.Rodrigues
import Mathlib.Algebra.Order.Field.Basic
import Mathlib.Tactic.FieldSimp
import Mathlib.Tactic.LinearCombination

/-!
# Modified Rodrigues parameters and their quaternions

Over an ordered field every vector of parameters has a unit quaternion, and the matrix of the
parameters is the one of their quaternion (`toMat3_eq`). So what is to be shown of parameters is
shown of quaternions: the shadow set has the negative quaternion, the negative parameters have the
conjugate, and the parameters of a composition have the product of the quaternions or its negative,
whichever formula gives them (`toMat3_mul`).
-/

namespace Attitude.Rodrigues

variable {K : Type} [Field K] [LinearOrder K] (r a b : Vec3 K) {eps : K}

/-! ## The unit quaternion of parameters -/

/-- The unit quaternion of the parameters, as one fraction for each part. -/
theorem toQuaternion_eq : toQuaternion r =
    ⟨(1 - r.dot r) / (1 + r.dot r), 2 * r.x / (1 + r.dot r), 2 * r.y / (1 + r.dot r),
      2 * r.z / (1 + r.dot r)⟩ := by
  ext <;> simp [toQuaternion, Quaternion.ofParts, Vec3.sdiv, Vec3.smul, Vec3.map]

/-- Opposite parameters give the conjugate. -/
theorem toQuaternion_neg : toQuaternion (-r) = (toQuaternion r).conj := by
  have hdot : (-r).dot (-r) = r.dot r := by
    simp only [Vec3.dot_eq, Vec3.neg_eq]
    ring
  rw [toQuaternion_eq, hdot, toQuaternion_eq, Quaternion.conj_eq]
  ext <;> simp only [Vec3.neg_eq] <;> ring

theorem toQuaternion_zero : toQuaternion (Vec3.zero : Vec3 K) = Quaternion.one := by
  ext <;> simp [toQuaternion_eq, Vec3.zero_eq, Vec3.dot_eq, Quaternion.one_eq]

variable [IsStrictOrderedRing K]

/-- A squared length is not negative in an ordered field. -/
theorem dot_self_nonneg : 0 ≤ r.dot r := by
  rw [Vec3.dot_eq]
  exact add_nonneg (add_nonneg (mul_self_nonneg _) (mul_self_nonneg _)) (mul_self_nonneg _)

/-- The denominator of the quaternion never vanishes. -/
theorem one_add_dot_self_ne_zero : 1 + r.dot r ≠ 0 :=
  (add_pos_of_pos_of_nonneg one_pos (dot_self_nonneg r)).ne'

/-- The quaternion of any parameters is a unit quaternion. -/
theorem isUnit_toQuaternion : (toQuaternion r).IsUnit := by
  have h := one_add_dot_self_ne_zero r
  have hdot : r.x * r.x + r.y * r.y + r.z * r.z = r.dot r := (Vec3.dot_eq r r).symm
  rw [Quaternion.IsUnit, Quaternion.normSq, toQuaternion_eq]
  field_simp
  linear_combination 4 * hdot

/-- The squared length of the vector part by one plus the scalar part: (1 - w²) / (1 + w)². -/
theorem dot_self_sdiv {q : Quaternion K} (hq : q.IsUnit) (hw : 1 + q.w ≠ 0) :
    (q.vec.sdiv (1 + q.w)).dot (q.vec.sdiv (1 + q.w)) = (1 - q.w) / (1 + q.w) := by
  have hunit : q.w * q.w + q.x * q.x + q.y * q.y + q.z * q.z = 1 := hq
  rw [Vec3.dot_eq]
  simp only [Vec3.sdiv, Vec3.map, Quaternion.vec]
  field_simp
  linear_combination hunit

/-- A unit quaternion other than minus one is the quaternion of its vector part by one plus its
scalar part. -/
theorem toQuaternion_sdiv {q : Quaternion K} (hq : q.IsUnit) (hw : 1 + q.w ≠ 0) :
    toQuaternion (q.vec.sdiv (1 + q.w)) = q := by
  have hden : 1 + (1 - q.w) / (1 + q.w) = 2 / (1 + q.w) := by
    field_simp
    ring
  rw [toQuaternion_eq, dot_self_sdiv hq hw, hden]
  ext
  · field_simp
    ring
  all_goals
    simp only [Vec3.sdiv, Vec3.map, Quaternion.vec]
    field_simp

/-- The squared length of the shadow set is the reciprocal one. -/
theorem dot_self_neg_sdiv (hr : r.dot r ≠ 0) :
    ((-r).sdiv (r.dot r)).dot ((-r).sdiv (r.dot r)) = 1 / r.dot r := by
  have hdot : r.x * r.x + r.y * r.y + r.z * r.z = r.dot r := (Vec3.dot_eq r r).symm
  rw [Vec3.dot_eq]
  simp only [Vec3.sdiv, Vec3.map, Vec3.neg_eq]
  field_simp
  linear_combination hdot

/-- The shadow set has the quaternion of opposite sign. -/
theorem toQuaternion_shadow (hr : r.dot r ≠ 0) :
    toQuaternion ((-r).sdiv (r.dot r)) = -toQuaternion r := by
  have h := one_add_dot_self_ne_zero r
  have hdot := dot_self_neg_sdiv r hr
  have hden : 1 + 1 / r.dot r = (1 + r.dot r) / r.dot r := by
    field_simp
    ring
  rw [toQuaternion_eq, hdot, hden, toQuaternion_eq, Quaternion.neg_eq]
  ext
  · field_simp
    ring
  all_goals
    simp only [Vec3.sdiv, Vec3.map, Vec3.neg_eq]
    field_simp

/-- The matrix of parameters is the one of their unit quaternion. -/
theorem toMat3_eq : toMat3 r = (toQuaternion r).toMat3 := by
  have h := one_add_dot_self_ne_zero r
  have hdot : r.dot r = r.x * r.x + r.y * r.y + r.z * r.z := Vec3.dot_eq r r
  rw [Quaternion.toMat3_eq, toQuaternion_eq]
  ext <;>
    simp only [toMat3, Vec3.hat, Mat3.add_eq, Mat3.mul_eq, Mat3.one_eq, Mat3.smul, Mat3.sdiv,
      Mat3.map, sq, lit_zero, lit_one, Nat.cast_ofNat] <;>
    field_simp <;>
    simp only [hdot] <;>
    ring

/-- The matrix of any parameters is a rotation. -/
theorem isRotation_toMat3 : (toMat3 r).IsRotation := by
  rw [toMat3_eq]
  exact (isUnit_toQuaternion r).isRotation

/-- No parameters have the identity matrix. -/
theorem toMat3_zero : toMat3 (Vec3.zero : Vec3 K) = 1 := by
  rw [toMat3_eq, toQuaternion_zero, Quaternion.toMat3_one]

/-- Opposite parameters have the transpose. -/
theorem toMat3_neg : toMat3 (-r) = (toMat3 r).transpose := by
  rw [toMat3_eq, toQuaternion_neg, Quaternion.toMat3_conj, toMat3_eq]

/-! ## The parameters of a quaternion -/

/-- The parameters of a unit quaternion determine it up to sign: they give back the one of the upper
hemisphere. -/
theorem toQuaternion_ofQuaternion {q : Quaternion K} (hq : q.IsUnit) :
    toQuaternion (ofQuaternion q) = q.upper := by
  have hw : 1 + q.upper.w ≠ 0 := (add_pos_of_pos_of_nonneg one_pos q.upper_w_nonneg).ne'
  rw [ofQuaternion, lit_one]
  exact toQuaternion_sdiv hq.upper hw

/-- The parameters of a unit quaternion have its matrix. -/
theorem toMat3_ofQuaternion {q : Quaternion K} (hq : q.IsUnit) :
    toMat3 (ofQuaternion q) = q.toMat3 := by
  rw [toMat3_eq, toQuaternion_ofQuaternion hq, Quaternion.toMat3_upper]

/-! ## The shadow set -/

omit [IsStrictOrderedRing K] in
/-- The guarded shadow set as a case distinction. Up to the guard the parameters are handed back. -/
theorem shadow_eq_ite :
    shadow eps r = if eps < r.dot r then (-r).sdiv (r.dot r) else r := by
  simp only [shadow, Vec3.select_eq_ite, less_ne_zero]

omit [IsStrictOrderedRing K] in
/-- The wrap as a case distinction: only outside of the unit ball are parameters replaced. -/
theorem shadowIfOutside_eq_ite :
    shadowIfOutside eps r = if 1 < r.dot r then shadow eps r else r := by
  simp only [shadowIfOutside, Vec3.select_eq_ite, less_ne_zero, lit_one]

/-- The shadow set has the same matrix, whichever way the guard decides. -/
theorem toMat3_shadow (heps : 0 ≤ eps) : toMat3 (shadow eps r) = toMat3 r := by
  rw [shadow_eq_ite]
  split_ifs with h
  · rw [toMat3_eq, toQuaternion_shadow r (heps.trans_lt h).ne', Quaternion.toMat3_neg, toMat3_eq]
  · rfl

/-- The wrap does not change the matrix. -/
theorem toMat3_shadowIfOutside (heps : 0 ≤ eps) :
    toMat3 (shadowIfOutside eps r) = toMat3 r := by
  rw [shadowIfOutside_eq_ite]
  split_ifs
  · exact toMat3_shadow r heps
  · rfl

/-! ## Compositions -/

/-- The closed form of the composition. -/
def closedProduct : Vec3 K :=
  (b.smul (1 - a.dot a) + a.smul (1 - b.dot b) - (b.cross a).smul 2).sdiv
    (1 + a.dot a * b.dot b - 2 * b.dot a)

/-- The denominator of the closed form is one plus the scalar part of the product of the
quaternions, up to factors that do not vanish. -/
theorem one_add_w_mul : 1 + (toQuaternion a * toQuaternion b).w =
    2 * (1 + a.dot a * b.dot b - 2 * b.dot a) / ((1 + a.dot a) * (1 + b.dot b)) := by
  have ha := one_add_dot_self_ne_zero a
  have hb := one_add_dot_self_ne_zero b
  have hab : b.dot a = b.x * a.x + b.y * a.y + b.z * a.z := Vec3.dot_eq b a
  simp only [Quaternion.mul_eq, toQuaternion_eq]
  field_simp
  rw [hab]
  ring

/-- The closed formula is the projection of the product of quaternions, if its denominator is not
zero. -/
theorem closedProduct_eq (hden : 1 + a.dot a * b.dot b - 2 * b.dot a ≠ 0) :
    closedProduct a b = (toQuaternion a * toQuaternion b).vec.sdiv
      (1 + (toQuaternion a * toQuaternion b).w) := by
  have ha := one_add_dot_self_ne_zero a
  have hb := one_add_dot_self_ne_zero b
  rw [one_add_w_mul]
  simp only [closedProduct, Quaternion.mul_eq, toQuaternion_eq, Quaternion.vec, Vec3.sdiv,
    Vec3.map, Vec3.smul, Vec3.add_eq, Vec3.sub_eq, Vec3.cross]
  ext <;> dsimp only <;> field_simp <;> ring

/-- The denominator of the closed formula is that of the projection up to a positive factor, so both
vanish together. -/
theorem one_add_w_mul_ne_zero (hden : 1 + a.dot a * b.dot b - 2 * b.dot a ≠ 0) :
    1 + (toQuaternion a * toQuaternion b).w ≠ 0 := by
  have ha := one_add_dot_self_ne_zero a
  have hb := one_add_dot_self_ne_zero b
  rw [one_add_w_mul]
  exact div_ne_zero (mul_ne_zero two_ne_zero hden) (mul_ne_zero ha hb)

/-- The closed formula composes: its quaternion is the product of the quaternions. -/
theorem toQuaternion_closedProduct (hden : 1 + a.dot a * b.dot b - 2 * b.dot a ≠ 0) :
    toQuaternion (closedProduct a b) = toQuaternion a * toQuaternion b := by
  have hunit := (isUnit_toQuaternion a).mul (isUnit_toQuaternion b)
  rw [closedProduct_eq a b hden, toQuaternion_sdiv hunit (one_add_w_mul_ne_zero a b hden)]

omit [IsStrictOrderedRing K] in
/-- The product as a case distinction on the denominator, before the result is wrapped. -/
theorem mul_eq : mul eps a b = shadowIfOutside eps
    (if eps < |1 + a.dot a * b.dot b - 2 * b.dot a| then closedProduct a b
      else ofQuaternion (toQuaternion a * toQuaternion b)) := by
  simp only [mul, Vec3.select_eq_ite, less_ne_zero, closedProduct, abs_eq, lit_one, Nat.cast_ofNat]

/-- **Compositions.** The matrix of a product of parameters is the product of their matrices, also
where the closed form has no value. -/
theorem toMat3_mul (heps : 0 ≤ eps) : toMat3 (mul eps a b) = toMat3 a * toMat3 b := by
  have hproduct : (toQuaternion a * toQuaternion b).toMat3 = toMat3 a * toMat3 b := by
    rw [Quaternion.toMat3_mul, toMat3_eq, toMat3_eq]
  -- the shadow set is the same rotation, so only the choice between the two formulas is left
  rw [mul_eq, toMat3_shadowIfOutside _ heps]
  split_ifs with h
  · have hden : 1 + a.dot a * b.dot b - 2 * b.dot a ≠ 0 := abs_pos.1 (heps.trans_lt h)
    rw [toMat3_eq, toQuaternion_closedProduct a b hden, hproduct]
  · rw [toMat3_ofQuaternion ((isUnit_toQuaternion a).mul (isUnit_toQuaternion b)), hproduct]

end Attitude.Rodrigues
