import Attitude.Proofs.Rotation.MatrixLogarithm

/-!
# The logarithm of a unit quaternion

The upper one of a unit quaternion and its opposite turns by at most a half turn around an axis, and
the rotation vector is that angle times the axis (`IsUnit.exists_toRotationVector`). The exponential
halves the angle again, so it leads back to the upper quaternion, and the matrix of the rotation
vector, which is written with the whole angle, is the matrix of the quaternion.

Two thresholds meet here. The logarithm replaces a quotient where the vector part is no longer than
`eps`, and the exponential a coefficient where half of the angle is under one thousandth. The length
of the vector part is the sine of half of the angle, so a vector part of at least one thousandth
passes both.
-/

namespace Attitude.Quaternion

open Partial

variable {q : Quaternion ℝ} {eps t : ℝ}

/-! ## Half of the angle -/

/-- The hemisphere choice does not change the length of the vector part. -/
theorem norm_vec_upper (q : Quaternion ℝ) : q.upper.vec.norm = q.vec.norm := by
  obtain h | h := q.upper_cases
  · rw [h]
  · rw [h]
    exact q.vec.norm_neg

/-- Of the angles up to a half turn only zero has a half angle without a sine. -/
theorem eq_zero_of_sin_half_eq_zero (ht : 0 ≤ t) (htpi : t ≤ Real.pi)
    (h : Real.sin (t / 2) = 0) : t = 0 := by
  have hhalf : t / 2 = 0 := by
    apply (Real.sin_eq_zero_iff_of_lt_of_lt _ _).1 h
    · linarith [Real.pi_pos]
    · linarith [Real.pi_pos]
  linarith

/-- The axis and the angle of a unit quaternion, and its rotation vector with them. -/
theorem IsUnit.exists_toRotationVector (hq : q.IsUnit)
    (hlong : q.vec.norm = 0 ∨ eps < q.vec.norm) :
    ∃ u t, u.dot u = 1 ∧ 0 ≤ t ∧ t ≤ Real.pi ∧ Real.sin (t / 2) = q.vec.norm ∧
      q.upper = around u t ∧ q.toRotationVector eps = u.smul t := by
  obtain ⟨u, t, hu, ht, htpi, hupper⟩ := hq.exists_around
  have hsin : Real.sin (t / 2) = q.vec.norm := by
    rw [← norm_vec_upper, hupper, norm_vec_around hu ht htpi]
  rw [← hsin] at hlong
  have hfar := hlong.imp_left (eq_zero_of_sin_half_eq_zero ht htpi)
  exact ⟨u, t, hu, ht, htpi, hsin, hupper, toRotationVector_of_upper hu ht htpi hupper hfar⟩

/-- An angle whose half has a sine of at least one thousandth is at least twice as large. -/
theorem far_of_sin_half (ht : 0 ≤ t) (htpi : t ≤ Real.pi)
    (h : Real.sin (t / 2) = 0 ∨ 1 / 1000 ≤ Real.sin (t / 2)) : t = 0 ∨ 1 / 500 ≤ |t| := by
  refine h.imp (eq_zero_of_sin_half_eq_zero ht htpi) fun hlong => ?_
  have hle : Real.sin (t / 2) ≤ t / 2 := Real.sin_le (by linarith)
  rw [abs_of_nonneg ht]
  linarith

/-! ## Undefined quotients -/

/-- The quaternion of a rotation vector is defined for every vector. -/
theorem ofRotationVector_value (v : Vec3 ℝ) :
    ofRotationVector (v.map value) = (ofRotationVector v).map value := by
  have hhalf : (v.map value).norm / lit 2 = value (v.norm / lit 2) := by
    rw [Vec3.norm_value]
    exact value_div_lit _ two_ne_zero
  have hfactor : (lit 1 / lit 2 : Partial ℝ) = value (lit 1 / lit 2) :=
    value_div_lit (lit 1) two_ne_zero
  simp only [ofRotationVector, hhalf, hfactor, Coefficient.sinc_value]
  rfl

/-- The angle is divided by the length of the vector part where that is not zero, and elsewhere the
scalar part is divided by, which is then not zero. -/
theorem toRotationVector_value (hq : q.IsUnit) (hnonneg : 0 ≤ eps) (heps : eps < 1) :
    (q.map value).toRotationVector (value eps) = (q.toRotationVector eps).map value := by
  have hupper : (q.map value).upper = q.upper.map value := select_map_value _ (-q) q
  have hcircle := hq.upper.w_sq_add_norm_vec
  simp only [toRotationVector, hupper]
  generalize q.upper = p at hcircle ⊢
  have hnorm : (p.map value).vec.norm = value p.vec.norm := p.vec.norm_value
  have hfactor : Attitude.select (less (value eps) (value p.vec.norm))
      (value (lit 2 * Scalar.atan2 p.vec.norm p.w) / value p.vec.norm) (lit 2 / value p.w) =
      value (Attitude.select (less eps p.vec.norm)
        (lit 2 * Scalar.atan2 p.vec.norm p.w / p.vec.norm) (lit 2 / p.w)) := by
    rw [value_less, Partial.select_value, Attitude.select_eq_ite]
    simp only [less_ne_zero]
    split_ifs with hlong
    · exact value_div (hnonneg.trans_lt hlong).ne'
    · -- scalar part and vector part cannot both be short
      have hw : p.w ≠ 0 := by
        intro hzero
        rw [hzero] at hcircle
        nlinarith [p.vec.norm_nonneg]
      exact value_div hw
  rw [hnorm]
  exact congrArg (p.vec.map value).smul hfactor

/-! ## There and back -/

/-- **The logarithm of a unit quaternion.** A rotation vector that is zero or not near zero has a
unit quaternion, with the same matrix. Of a unit quaternion whose vector part is zero or not near
zero, the rotation vector is at most a half turn long, has the same matrix, leads back to the upper
one of the quaternion and its opposite, and is that of the opposite quaternion, too, unless the
scalar part is zero. No undefined quotient reaches either result. -/
theorem logarithm_of_quaternion :
    (∀ v : Vec3 ℝ, v.norm = 0 ∨ 1 / 500 ≤ v.norm →
      (ofRotationVector v).IsUnit ∧
      (ofRotationVector v).toMat3 = RotationVector.toMat3 v ∧
      ofRotationVector (v.map value) = (ofRotationVector v).map value) ∧
    ∀ (eps : ℝ) (q : Quaternion ℝ), 0 ≤ eps → eps < 1 / 1000 → q.IsUnit →
      q.vec.norm = 0 ∨ 1 / 1000 ≤ q.vec.norm →
      (q.toRotationVector eps).norm ≤ Real.pi ∧
      ofRotationVector (q.toRotationVector eps) = (if 0 ≤ q.w then q else -q) ∧
      RotationVector.toMat3 (q.toRotationVector eps) = q.toMat3 ∧
      (q.w ≠ 0 → (-q).toRotationVector eps = q.toRotationVector eps) ∧
      (q.map value).toRotationVector (value eps) = (q.toRotationVector eps).map value := by
  refine ⟨fun v hv => ?_, fun eps q hnonneg heps hq hvec => ?_⟩
  · exact ⟨isUnit_ofRotationVector hv, toMat3_ofRotationVector hv, ofRotationVector_value v⟩
  · have hneg : q.w ≠ 0 → (-q).toRotationVector eps = q.toRotationVector eps := by
      intro hw
      rw [toRotationVector_neg, if_neg hw]
    have hvalue := toRotationVector_value hq hnonneg (heps.trans (by norm_num))
    obtain ⟨u, t, hu, ht, htpi, hsin, hupper, hv⟩ :=
      hq.exists_toRotationVector (hvec.imp_right heps.trans_le)
    rw [← hsin] at hvec
    -- a vector part that is not short belongs to a half angle that is not near zero
    have hfar := far_of_sin_half ht htpi hvec
    refine ⟨?_, ?_, ?_, hneg, hvalue⟩
    · rw [hv, Vec3.norm_smul, Vec3.norm_of_unit hu, mul_one, abs_of_nonneg ht]
      exact htpi
    · rw [hv, ofRotationVector_smul hu hfar, ← hupper, upper_eq_ite_nonneg]
    · have hfar' : t = 0 ∨ 1 / 1000 ≤ |t| := hfar.imp_right fun h => by linarith
      rw [hv, RotationVector.toMat3_smul hu hfar', ← toMat3_around hu, ← hupper, toMat3_upper]

/-- A rotation vector at the bound, and a unit quaternion that is not an upper one. -/
theorem logarithm_of_lowerQuaternion :
    let v : Vec3 ℝ := ⟨0, 1 / 500, 0⟩
    let q : Quaternion ℝ := ⟨-3 / 5, 0, 4 / 5, 0⟩
    let eps : ℝ := 1 / 10 ^ 7
    v.norm = 1 / 500 ∧ 0 ≤ eps ∧ eps < 1 / 1000 ∧ q.IsUnit ∧ q.vec.norm = 4 / 5 ∧
      (ofRotationVector v).IsUnit ∧ (ofRotationVector v).toMat3 = RotationVector.toMat3 v ∧
      (q.toRotationVector eps).norm ≤ Real.pi ∧ ofRotationVector (q.toRotationVector eps) = -q ∧
      RotationVector.toMat3 (q.toRotationVector eps) = q.toMat3 ∧
      (-q).toRotationVector eps = q.toRotationVector eps := by
  intro v q eps
  have hv : v.norm = 1 / 500 :=
    Vec3.norm_of_dot_self (by norm_num) (by norm_num [v, Vec3.dot_eq])
  have hvec : q.vec.norm = 4 / 5 :=
    Vec3.norm_of_dot_self (by norm_num) (by norm_num [q, vec, Vec3.dot_eq])
  have hnonneg : 0 ≤ eps := by norm_num [eps]
  have heps : eps < 1 / 1000 := by norm_num [eps]
  have hunit : q.IsUnit := by norm_num [q, IsUnit, normSq]
  obtain ⟨hexponential, hlogarithm⟩ := logarithm_of_quaternion
  obtain ⟨hv', hmatrix, -⟩ := hexponential v (.inr hv.ge)
  obtain ⟨hshort, hback, hsame, hneg, -⟩ :=
    hlogarithm eps q hnonneg heps hunit (.inr (by norm_num [hvec]))
  -- the scalar part is negative, so it is the opposite quaternion that comes back
  rw [if_neg (by norm_num [q])] at hback
  exact ⟨hv, hnonneg, heps, hunit, hvec, hv', hmatrix, hshort, hback, hsame,
    hneg (by norm_num [q])⟩

end Attitude.Quaternion
