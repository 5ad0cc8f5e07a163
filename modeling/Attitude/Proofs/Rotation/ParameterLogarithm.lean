import Attitude.Proofs.Rotation.QuaternionLogarithm
import Attitude.Proofs.Rotation.ShadowSet

/-!
# The exponential and the logarithm of parameters

The parameters of a rotation vector go through its quaternion, and so through half of the angle. The
way back takes four times the arc tangent of the length of the parameters, at any length. Both ways
meet at the rotation around an axis: the quaternion of `n` times the axis is the one by four times
the arc tangent of `n` (`toQuaternion_smul`).

So there and back is the way from parameters to their quaternion and back, which chooses the set in
the unit ball. Parameters outside of the ball turn by more than a half turn, and their quaternion is
not the upper one.
-/

namespace Attitude.Rodrigues

open Partial

variable {u r : Vec3 ℝ} {eps n : ℝ}

/-! ## Arc tangents -/

/-- The tangent of the arctangent, as a product. -/
theorem sin_arctan_eq (n : ℝ) : Real.sin (Real.arctan n) = n * Real.cos (Real.arctan n) := by
  rw [← Real.tan_mul_cos (Real.cos_arctan_pos n).ne', Real.tan_arctan]

/-- The cosine of a double angle, from the tangent. -/
theorem cos_two_mul_arctan (n : ℝ) :
    Real.cos (2 * Real.arctan n) = (1 - n * n) / (1 + n * n) := by
  have hden : 1 + n ^ 2 ≠ 0 := by positivity
  rw [Real.cos_two_mul, Real.cos_sq_arctan, ← pow_two]
  field_simp
  ring

/-- The sine of a double angle, from the tangent. -/
theorem sin_two_mul_arctan (n : ℝ) : Real.sin (2 * Real.arctan n) = 2 * n / (1 + n * n) := by
  have hcos := Real.cos_sq_arctan n
  rw [Real.sin_two_mul, sin_arctan_eq, ← pow_two]
  linear_combination 2 * n * hcos

/-- The quaternion of parameters along an axis has twice the arc tangent for half of its angle. -/
theorem toQuaternion_smul (hu : u.dot u = 1) (n : ℝ) :
    toQuaternion (u.smul n) = .around u (4 * Real.arctan n) := by
  have hhalf : 4 * Real.arctan n / 2 = 2 * Real.arctan n := by ring
  rw [toQuaternion_eq, Vec3.dot_smul_self, hu, mul_one, Quaternion.around_eq, hhalf,
    cos_two_mul_arctan, sin_two_mul_arctan]
  ext <;> simp only [Vec3.smul_eq] <;> ring

/-- Parameters of at least one thousandth turn by at least two thousandths, because the sine of
twice the arc tangent is nearly twice as long. -/
theorem far_of_arctan (hn : 1 / 1000 ≤ n) : 1 / 500 ≤ 4 * Real.arctan n := by
  let s := Real.arctan (1 / 1000)
  have hs : 0 ≤ 2 * s := mul_nonneg zero_le_two (Real.arctan_nonneg.2 (by norm_num))
  calc 1 / 500 ≤ 2 * (2 * (1 / 1000) / (1 + 1 / 1000 * (1 / 1000))) := by norm_num
    _ = 2 * Real.sin (2 * s) := by rw [sin_two_mul_arctan]
    _ ≤ 2 * (2 * s) := mul_le_mul_of_nonneg_left (Real.sin_le hs) zero_le_two
    _ = 4 * s := by ring
    _ ≤ 4 * Real.arctan n := mul_le_mul_of_nonneg_left (Real.arctan_mono hn) zero_le_four

/-! ## The logarithm -/

/-- The rotation vector of parameters along an axis turns by four times the arc tangent, at any
length beyond `eps`. -/
theorem toRotationVector_smul (hu : u.dot u = 1) (hnonneg : 0 ≤ eps)
    (hn : n = 0 ∨ eps < n) : toRotationVector eps (u.smul n) = u.smul (4 * Real.arctan n) := by
  obtain rfl | hlong := hn
  · rw [toRotationVector_eq, Real.arctan_zero, mul_zero, Vec3.zero_smul]
    ext <;> simp [Vec3.zero_eq, Vec3.smul_eq]
  · have hpos : 0 < n := hnonneg.trans_lt hlong
    have hnorm : (u.smul n).norm = n := by
      rw [Vec3.norm_smul, Vec3.norm_of_unit hu, mul_one, abs_of_pos hpos]
    rw [toRotationVector_eq, hnorm, if_pos hlong]
    ext <;> simp only [Vec3.smul_eq] <;> field_simp

/-- Parameters that are zero or not near zero turn around an axis, and so do their quaternion and
their rotation vector. -/
theorem exists_toRotationVector (hnonneg : 0 ≤ eps) (heps : eps < 1 / 1000)
    (hr : r.norm = 0 ∨ 1 / 1000 ≤ r.norm) : ∃ u t, u.dot u = 1 ∧ (t = 0 ∨ 1 / 500 ≤ |t|) ∧
      toQuaternion r = .around u t ∧ toRotationVector eps r = u.smul t := by
  obtain ⟨u, hu, hur⟩ := r.exists_direction
  have hquaternion := toQuaternion_smul hu r.norm
  have hvector := toRotationVector_smul hu hnonneg (hr.imp_right heps.trans_le)
  rw [hur] at hquaternion hvector
  refine ⟨u, _, hu, ?_, hquaternion, hvector⟩
  refine hr.imp (fun hzero => ?_) fun hlong => (far_of_arctan hlong).trans (le_abs_self _)
  rw [hzero, Real.arctan_zero, mul_zero]

/-- The arc tangent is divided by the length of the parameters only where that is not zero. -/
theorem toRotationVector_value (r : Vec3 ℝ) (hnonneg : 0 ≤ eps) :
    toRotationVector (value eps) (r.map value) = (toRotationVector eps r).map value := by
  have hfactor : select (less (value eps) (value r.norm))
      (value (lit 4 * Scalar.atan r.norm) / value r.norm) (lit 4) =
      value (select (less eps r.norm) (lit 4 * Scalar.atan r.norm / r.norm) (lit 4)) := by
    rw [value_less, Partial.select_value, Attitude.select_eq_ite]
    simp only [less_ne_zero]
    split_ifs with hlong
    · exact value_div (hnonneg.trans_lt hlong).ne'
    · rfl
  simp only [toRotationVector, Vec3.norm_value]
  exact congrArg (r.map value).smul hfactor

/-! ## There and back -/

/-- The parameters of a rotation vector are defined for every vector. -/
theorem ofRotationVector_value (v : Vec3 ℝ) :
    ofRotationVector (v.map value) = (ofRotationVector v).map value := by
  rw [ofRotationVector, Quaternion.ofRotationVector_value, ofQuaternion_value]
  rfl

/-- The projection of a unit quaternion lies in the unit ball. -/
theorem norm_ofQuaternion_le {q : Quaternion ℝ} (hq : q.IsUnit) : (ofQuaternion q).norm ≤ 1 := by
  have hdot := dot_self_ofQuaternion_le hq
  rw [← Vec3.norm_mul_self] at hdot
  exact (le_abs_self _).trans (abs_le_one_iff_mul_self_le_one.2 hdot)

/-- **The exponential and the logarithm of parameters.** A rotation vector that is zero or not near
zero has parameters in the unit ball, with the same matrix. Parameters that are zero or not near
zero, inside of the ball or outside, have a rotation vector with the same matrix, and it leads back
to that set of the two that lies in the ball. No undefined quotient reaches these vectors. -/
theorem logarithm_of_parameters :
    (∀ v : Vec3 ℝ, v.norm = 0 ∨ 1 / 500 ≤ v.norm →
      (ofRotationVector v).norm ≤ 1 ∧
      toMat3 (ofRotationVector v) = RotationVector.toMat3 v ∧
      ofRotationVector (v.map value) = (ofRotationVector v).map value) ∧
    ∀ (eps : ℝ) (r : Vec3 ℝ), 0 ≤ eps → eps ≤ 1 / 10000 → r.norm = 0 ∨ 1 / 1000 ≤ r.norm →
      RotationVector.toMat3 (toRotationVector eps r) = toMat3 r ∧
      ofRotationVector (toRotationVector eps r) = shadowIfOutside eps r ∧
      toRotationVector (value eps) (r.map value) = (toRotationVector eps r).map value ∧
      shadowIfOutside (value eps) (r.map value) = (shadowIfOutside eps r).map value := by
  refine ⟨fun v hv => ?_, fun eps r hnonneg heps hr => ?_⟩
  · have hunit := Quaternion.isUnit_ofRotationVector hv
    refine ⟨norm_ofQuaternion_le hunit, ?_, ofRotationVector_value v⟩
    rw [ofRotationVector, toMat3_ofQuaternion hunit, Quaternion.toMat3_ofRotationVector hv]
  · -- both ways turn around one axis by one angle, which need not be principal
    obtain ⟨u, t, hu, hfar, hquaternion, hvector⟩ :=
      exists_toRotationVector hnonneg (heps.trans_lt (by norm_num)) hr
    have hfar' : t = 0 ∨ 1 / 1000 ≤ |t| := hfar.imp_right fun h => by linarith
    refine ⟨?_, ?_, toRotationVector_value r hnonneg, shadowIfOutside_value r hnonneg⟩
    · rw [hvector, RotationVector.toMat3_smul hu hfar', toMat3_eq, hquaternion,
        Quaternion.toMat3_around hu]
    · rw [← ofQuaternion_toQuaternion r (heps.trans (by norm_num)), hquaternion, hvector,
        ofRotationVector, Quaternion.ofRotationVector_smul hu hfar]

/-- A rotation vector of more than a half turn, and parameters outside of the unit ball. -/
theorem logarithm_of_outerParameters :
    let v : Vec3 ℝ := ⟨0, 4, 0⟩
    let r : Vec3 ℝ := ⟨2, 0, 0⟩
    let eps : ℝ := 1 / 10 ^ 7
    v.norm = 4 ∧ r.norm = 2 ∧ 0 ≤ eps ∧ eps ≤ 1 / 10000 ∧
      (ofRotationVector v).norm ≤ 1 ∧ toMat3 (ofRotationVector v) = RotationVector.toMat3 v ∧
      RotationVector.toMat3 (toRotationVector eps r) = toMat3 r ∧
      ofRotationVector (toRotationVector eps r) = ⟨-1 / 2, 0, 0⟩ := by
  intro v r eps
  have hv : v.norm = 4 :=
    Vec3.norm_of_dot_self (by norm_num) (by norm_num [v, Vec3.dot_eq])
  have hr : r.norm = 2 := Vec3.norm_of_dot_self zero_le_two (by norm_num [r, Vec3.dot_eq])
  have hnonneg : 0 ≤ eps := by norm_num [eps]
  have heps : eps ≤ 1 / 10000 := by norm_num [eps]
  have hinside : shadowIfOutside eps r = ⟨-1 / 2, 0, 0⟩ := by
    rw [shadowIfOutside_of_lt (heps.trans (by norm_num)) (by norm_num [r, Vec3.dot_eq])]
    ext <;> norm_num [r, Vec3.sdiv, Vec3.map, Vec3.neg_eq, Vec3.dot_eq]
  obtain ⟨hexponential, hlogarithm⟩ := logarithm_of_parameters
  obtain ⟨hball, hmatrix, -⟩ := hexponential v (.inr (by norm_num [hv]))
  obtain ⟨hsame, hback, -⟩ := hlogarithm eps r hnonneg heps (.inr (by norm_num [hr]))
  exact ⟨hv, hr, hnonneg, heps, hball, hmatrix, hsame, hback.trans hinside⟩

end Attitude.Rodrigues
