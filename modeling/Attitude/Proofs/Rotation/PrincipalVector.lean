import Attitude.Proofs.Rotation.Exponential
import Attitude.Proofs.Rotation.HalfTurn
import Mathlib.Analysis.SpecialFunctions.Trigonometric.Angle
import Mathlib.Analysis.SpecialFunctions.Trigonometric.Bounds

/-!
# Principal vectors

A rotation vector longer than a half turn is the same rotation as a shorter one, its principal
vector: whole turns are taken off the angle, and an angle that is negative then turns around the
opposite axis.

Each encoding of the exponential is stated around that axis (`Vec3.Generic.exists_turn`), where the
quaternion may come out as the opposite one. Each logarithm then reads the angle and the axis off
the encoding (`RotationVector.ofMat3_around`, `Quaternion.toRotationVector_around`,
`Rodrigues.toRotationVector_ofQuaternion_around`). All of them meet in the principal vector.
-/

namespace Attitude

namespace Vec3

/-- The angle of a vector, less whole turns: more than minus a half turn and at most a half turn. -/
noncomputable def reducedAngle (v : Vec3 ℝ) : ℝ := (v.norm : Real.Angle).toReal

/-- The vector with the reduced angle around the same axis. -/
noncomputable def principal (v : Vec3 ℝ) : Vec3 ℝ := v.smul (v.reducedAngle / v.norm)

/-- A vector that is not near zero, whose angle is neither near a whole turn nor a half turn. -/
structure Generic (v : Vec3 ℝ) : Prop where
  long : 1 / 500 ≤ v.norm
  far : 1 / 500 ≤ |v.reducedAngle|
  lt_pi : |v.reducedAngle| < Real.pi

/-- A vector that is shorter than a half turn is principal already. -/
theorem principal_of_lt_pi {v : Vec3 ℝ} (hpos : 0 < v.norm) (hlt : v.norm < Real.pi) :
    v.principal = v := by
  have hangle : v.reducedAngle = v.norm :=
    Real.Angle.toReal_coe_eq_self_iff.2 ⟨by linarith [Real.pi_pos], hlt.le⟩
  rw [principal, hangle, div_self hpos.ne']
  ext <;> exact one_mul _

end Vec3

variable {u : Vec3 ℝ} {t : ℝ}

/-! ## Exponentials -/

/-- A turn the other way around the opposite axis is the same turn. -/
theorem Quaternion.around_neg_neg (u : Vec3 ℝ) (t : ℝ) : around (-u) (-t) = around u t := by
  rw [around_eq, around_eq, neg_div, Real.cos_neg, Real.sin_neg]
  ext <;> simp only [Vec3.neg_eq, neg_mul_neg]

/-- Whole turns leave a quaternion as it is or take it to the opposite one. -/
theorem Quaternion.around_of_angle_eq (u : Vec3 ℝ) {s t : ℝ} (h : (s : Real.Angle) = t) :
    around u s = around u t ∨ around u s = -around u t := by
  obtain ⟨k, hk⟩ := Real.Angle.angle_eq_iff_two_pi_dvd_sub.1 h
  have hhalf : s / 2 = t / 2 + k * Real.pi := by linear_combination hk / 2
  rw [around_eq, around_eq, hhalf, Real.cos_add_int_mul_pi, Real.sin_add_int_mul_pi]
  obtain heven | hodd := k.even_or_odd
  · left
    rw [heven.neg_one_zpow, one_mul, one_mul]
  · right
    rw [hodd.neg_one_zpow, neg_eq]
    ext <;> dsimp only <;> ring

/-- The quaternion of a multiple of the axis is the rotation by the factor, which may be negative,
unless it is near zero. -/
theorem Quaternion.ofRotationVector_smul (hu : u.dot u = 1) (ht : t = 0 ∨ 1 / 500 ≤ |t|) :
    ofRotationVector (u.smul t) = around u t := by
  have hhalf : t / 2 = 0 ∨ 1 / 1000 ≤ |t / 2| := by
    rw [abs_div, abs_two]
    obtain rfl | hfar := ht
    · exact .inl (zero_div 2)
    · exact .inr (by linarith)
  have hsin := Coefficient.sinc_abs_mul hhalf
  have hnorm : (u.smul t).norm / 2 = |t / 2| := by
    rw [Vec3.norm_smul, Vec3.norm_of_unit hu, mul_one, abs_div, abs_two]
  simp only [ofRotationVector, lit_one, Nat.cast_ofNat, hnorm, around_eq]
  -- the half angle may be negative; cosine and quotient are even
  ext
  · exact Real.cos_abs _
  · show 1 / 2 * Coefficient.sinc |t / 2| * (t * u.x) = _
    linear_combination u.x * hsin
  · show 1 / 2 * Coefficient.sinc |t / 2| * (t * u.y) = _
    linear_combination u.y * hsin
  · show 1 / 2 * Coefficient.sinc |t / 2| * (t * u.z) = _
    linear_combination u.z * hsin

/-- A vector of length zero, or one whose half angle is not near zero, is a turn around an axis by
its length, and so is its quaternion. -/
theorem Quaternion.exists_ofRotationVector_eq {v : Vec3 ℝ} (hv : v.norm = 0 ∨ 1 / 500 ≤ v.norm) :
    ∃ a : Vec3 ℝ, a.dot a = 1 ∧ a.smul v.norm = v ∧ ofRotationVector v = around a v.norm := by
  obtain ⟨a, ha, hav⟩ := v.exists_direction
  have haround := ofRotationVector_smul ha (hv.imp_right (·.trans (le_abs_self _)))
  rw [hav] at haround
  exact ⟨a, ha, hav, haround⟩

/-- The quaternion of such a vector is a unit quaternion, as no series is taken. -/
theorem Quaternion.isUnit_ofRotationVector {v : Vec3 ℝ} (hv : v.norm = 0 ∨ 1 / 500 ≤ v.norm) :
    (ofRotationVector v).IsUnit := by
  obtain ⟨a, ha, -, haround⟩ := exists_ofRotationVector_eq hv
  rw [haround]
  exact isUnit_around ha _

/-- The matrix of a vector that is zero or not near zero is the one of its quaternion. -/
theorem Quaternion.toMat3_ofRotationVector {v : Vec3 ℝ} (hv : v.norm = 0 ∨ 1 / 500 ≤ v.norm) :
    (ofRotationVector v).toMat3 = RotationVector.toMat3 v := by
  obtain ⟨a, ha, hav, haround⟩ := exists_ofRotationVector_eq hv
  have hfar : v.norm = 0 ∨ 1 / 1000 ≤ |v.norm| := by
    rw [abs_of_nonneg v.norm_nonneg]
    exact hv.imp_right fun h => by linarith
  rw [haround, toMat3_around ha, ← RotationVector.toMat3_smul ha hfar, hav]

/-- The rotation of the vector `v` is the one by `t` around `u`, and `t` is an angle at which no
logarithm uses a series or has to name an axis. -/
structure Vec3.Turn (v u : Vec3 ℝ) (t : ℝ) : Prop where
  unit : u.dot u = 1
  far : 1 / 500 ≤ t
  lt_pi : t < Real.pi
  principal : v.principal = u.smul t
  upper : (Quaternion.ofRotationVector v).upper = (Quaternion.around u t).upper

/-- The reduced angle turns around the axis of the vector, or around the opposite one if it is
negative. -/
theorem Vec3.Generic.exists_turn {v : Vec3 ℝ} (hv : v.Generic) : ∃ u t, v.Turn u t := by
  have hpos : 0 < v.norm := by linarith [hv.long]
  have hfar := hv.far
  have hlt := hv.lt_pi
  obtain ⟨a, ha, hav, haround⟩ := Quaternion.exists_ofRotationVector_eq (.inr hv.long)
  have hprincipal : v.principal = a.smul v.reducedAngle := by
    rw [Vec3.principal]
    conv_lhs => arg 2; rw [← hav]
    ext <;> simp only [smul_eq] <;> field_simp
  -- the vector and the principal one differ by whole turns, so their quaternions differ in sign
  -- at most
  have hupper : (Quaternion.ofRotationVector v).upper =
      (Quaternion.around a v.reducedAngle).upper := by
    have hturns := Quaternion.around_of_angle_eq a (Real.Angle.coe_toReal v.norm).symm
    rw [← haround] at hturns
    obtain hsame | hopposite := hturns
    · rw [hsame]
      rfl
    · obtain ⟨hlow, hhigh⟩ := abs_lt.1 hlt
      have hw : (Quaternion.around a v.reducedAngle).w ≠ 0 := by
        rw [Quaternion.around_eq]
        exact (Real.cos_pos_of_mem_Ioo ⟨by linarith, by linarith⟩).ne'
      rw [hopposite]
      exact Quaternion.upper_neg _ hw
  -- a negative angle is a positive one around the opposite axis
  obtain hnonneg | hneg := le_total 0 v.reducedAngle
  · rw [abs_of_nonneg hnonneg] at hfar hlt
    exact ⟨a, _, ha, hfar, hlt, hprincipal, hupper⟩
  · rw [abs_of_nonpos hneg] at hfar hlt
    refine ⟨-a, _, a.dot_neg_self.trans ha, hfar, hlt, ?_, ?_⟩
    · rw [hprincipal]
      ext <;> exact (neg_mul_neg _ _).symm
    · rw [hupper, Quaternion.around_neg_neg]

/-! ## Logarithms -/

/-! ### Matrices -/

namespace RotationVector

/-- The projection to the axis is the one of the half turn around it. -/
theorem projection_around (u : Vec3 ℝ) (ht : Real.cos t ≠ 1) :
    projection (.around u t) (Real.cos t) = projection (.halfTurn u) (-1) := by
  have hcos : 1 - Real.cos t ≠ 0 := sub_ne_zero.2 ht.symm
  have htwo : (lit 2 : ℝ) = 2 := Nat.cast_ofNat
  rw [projection_halfTurn]
  ext <;> simp only [projection, Mat3.around, Mat3.transpose, Mat3.add_eq, Mat3.sub_eq, Mat3.sdiv,
    Mat3.smul, Mat3.map, Mat3.one_eq, lit_one, htwo] <;> field_simp <;> ring

/-- The skew part tells the axis from the opposite one. -/
theorem axis_around (hu : u.dot u = 1) (hcos : Real.cos t ≠ 1) (hsin : 0 < Real.sin t) :
    axis (.around u t) (Real.cos t) (u.smul (2 * Real.sin t)) = u := by
  have hdot : u.dot (u.smul (2 * Real.sin t)) = 2 * Real.sin t := by
    rw [Vec3.dot_eq] at hu ⊢
    simp only [Vec3.smul_eq]
    linear_combination 2 * Real.sin t * hu
  rw [axis_eq, projection_around u hcos]
  obtain hnamed | hnamed := Vec3.named_or_named_neg hu
  · rw [leadingColumn_projection hnamed]
    simp only [Vec3.sdiv_norm_of_unit hu, hdot]
    rw [if_neg (by linarith)]
  · rw [← Mat3.halfTurn_neg, leadingColumn_projection hnamed]
    simp only [Vec3.sdiv_norm_of_unit hnamed.unit, Vec3.neg_dot, hdot]
    rw [if_pos (by linarith)]
    ext <;> exact neg_neg _

/-- The rotation vector of a matrix is the angle around the axis. -/
theorem ofMat3_around (hu : u.dot u = 1) (ht : 1 / 1000 ≤ t) (htpi : t < Real.pi) :
    ofMat3 (.around u t) = u.smul t := by
  have hpos : 0 < t := by linarith
  have hsin : 0 < Real.sin t := Real.sin_pos_of_pos_of_lt_pi hpos htpi
  have hcos : Real.cos t ≠ 1 := by
    rw [← Real.cos_zero]
    exact (Real.cos_lt_cos_of_nonneg_of_le_pi le_rfl htpi.le hpos).ne
  rw [ofMat3_eq (hasAngle_around hu hpos.le htpi.le), vee_skewPart_around, axis_around hu hcos hsin,
    ite_eq_left_iff]
  intro _
  -- away from zero the coefficient is a closed form
  rw [Coefficient.halfCosecant_eq, if_neg (by rw [abs_of_pos hpos]; linarith)]
  ext <;> simp only [Vec3.smul_eq] <;> field_simp

end RotationVector

/-! ### Quaternions -/

namespace Quaternion

/-- The rotation vector of a quaternion is the angle around the axis. -/
theorem toRotationVector_around (hu : u.dot u = 1) (ht : 1 / 500 ≤ t) (htpi : t < Real.pi)
    {eps : ℝ} (heps : eps ≤ 1 / 2500) : (around u t).toRotationVector eps = u.smul t := by
  have hpos : 0 < t := by linarith
  have hquarter : 1 / 2 ≤ 2 / Real.pi := by
    rw [div_le_div_iff₀ two_pos Real.pi_pos]
    linarith [Real.pi_le_four]
  have hlong : eps < Real.sin (t / 2) :=
    calc eps ≤ 1 / 2500 := heps
      _ < 1 / 2 * (t / 2) := by linarith
      _ ≤ 2 / Real.pi * (t / 2) := mul_le_mul_of_nonneg_right hquarter (by linarith)
      _ ≤ Real.sin (t / 2) := Real.mul_le_sin (by linarith) (by linarith)
  exact toRotationVector_of_upper hu hpos.le htpi.le (upper_around hpos.le htpi.le) (.inr hlong)

end Quaternion

/-! ### Parameters -/

namespace Rodrigues

/-- The parameters of a rotation are the axis times the tangent of a quarter of the angle. -/
theorem ofQuaternion_around (ht : 0 < t) (htpi : t < Real.pi) :
    ofQuaternion (.around u t) = u.smul (Real.tan (t / 4)) := by
  have hhalf : Real.sin (t / 2) / (1 + Real.cos (t / 2)) = Real.tan (t / 4) := by
    have hcos : Real.cos (t / 4) ≠ 0 :=
      (Real.cos_pos_of_mem_Ioo ⟨by linarith, by linarith⟩).ne'
    rw [show t / 2 = 2 * (t / 4) by ring, Real.sin_two_mul, Real.cos_two_mul,
      Real.tan_eq_sin_div_cos]
    field_simp
    ring
  rw [ofQuaternion, Quaternion.upper_around ht.le htpi.le, Quaternion.vec_around,
    Quaternion.w_around, lit_one, ← hhalf]
  ext <;> simp only [Vec3.smul_eq, Vec3.sdiv, Vec3.map] <;> ring

/-- The rotation vector of parameters is the angle around the axis. -/
theorem toRotationVector_ofQuaternion_around (hu : u.dot u = 1) (ht : 1 / 500 ≤ t)
    (htpi : t < Real.pi) {eps : ℝ} (heps : eps ≤ 1 / 2500) :
    toRotationVector eps (ofQuaternion (.around u t)) = u.smul t := by
  have hpos : 0 < t := by linarith
  have htan : t / 4 ≤ Real.tan (t / 4) := Real.le_tan (by linarith) (by linarith)
  have hnorm : (u.smul (Real.tan (t / 4))).norm = Real.tan (t / 4) := by
    rw [Vec3.norm_smul, Vec3.norm_of_unit hu, mul_one, abs_of_nonneg (by linarith)]
  have harctan : Real.arctan (Real.tan (t / 4)) = t / 4 :=
    Real.arctan_tan (by linarith) (by linarith)
  have hne : Real.tan (t / 4) ≠ 0 := by linarith
  rw [ofQuaternion_around hpos htpi, toRotationVector_eq, hnorm, if_pos (by linarith), harctan]
  ext <;> simp only [Vec3.smul_eq] <;> field_simp

end Rodrigues

/-! ### Principal vectors -/

namespace Vec3.Generic

variable {v : Vec3 ℝ} {eps : ℝ}

/-- The rotation vector of the matrix of a vector is the principal vector. -/
theorem ofMat3_toMat3 (hv : v.Generic) :
    RotationVector.ofMat3 (RotationVector.toMat3 v) = v.principal := by
  obtain ⟨u, t, h⟩ := hv.exists_turn
  rw [← Quaternion.toMat3_ofRotationVector (.inr hv.long), ← Quaternion.toMat3_upper, h.upper,
    Quaternion.toMat3_upper, Quaternion.toMat3_around h.unit,
    RotationVector.ofMat3_around h.unit (by linarith [h.far]) h.lt_pi, h.principal]

/-- The rotation vector of the quaternion of a vector is the principal vector. -/
theorem toRotationVector_quaternion (hv : v.Generic) (heps : eps ≤ 1 / 2500) :
    (Quaternion.ofRotationVector v).toRotationVector eps = v.principal := by
  obtain ⟨u, t, h⟩ := hv.exists_turn
  rw [h.principal, ← Quaternion.toRotationVector_around h.unit h.far h.lt_pi heps]
  simp only [Quaternion.toRotationVector, h.upper]

/-- The rotation vector of the parameters of a vector is the principal vector. -/
theorem toRotationVector_rodrigues (hv : v.Generic) (heps : eps ≤ 1 / 2500) :
    Rodrigues.toRotationVector eps (Rodrigues.ofRotationVector v) = v.principal := by
  obtain ⟨u, t, h⟩ := hv.exists_turn
  rw [h.principal, ← Rodrigues.toRotationVector_ofQuaternion_around h.unit h.far h.lt_pi heps]
  simp only [Rodrigues.ofRotationVector, Rodrigues.ofQuaternion, h.upper]

end Vec3.Generic

end Attitude
