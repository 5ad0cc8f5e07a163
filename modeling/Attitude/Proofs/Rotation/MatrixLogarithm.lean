import Attitude.Proofs.Exact.Coefficient
import Attitude.Proofs.Rotation.PrincipalVector

/-!
# The logarithm of a rotation matrix

Every rotation turns around an axis by an angle of at most a half turn
(`Mat3.IsRotation.exists_around`), and its rotation vector is that angle times the axis: by the
skew part where the angle is not near a half turn, by the symmetric part near a half turn, and by
the name of the axis at a half turn.

Each of the two ways divides by something that vanishes in the range of the other one: the skew part
by the sine of the angle, and the symmetric part by one less the cosine and by the root of a
diagonal entry. The choices drop the quotients that are undefined, so the vector of a rotation is
always defined (`RotationVector.ofMat3_value`).
-/

namespace Attitude

open Partial

variable {m : Mat3 ℝ} {u : Vec3 ℝ} {t : ℝ}

/-! ## Axes and angles -/

theorem Vec3.norm_value (v : Vec3 ℝ) : (v.map value).norm = value v.norm :=
  sqrt_value (Rodrigues.dot_self_nonneg v)

/-- Of a unit quaternion and its negative the upper one turns around an axis by at most a half
turn. -/
theorem Quaternion.IsUnit.exists_around {q : Quaternion ℝ} (hq : q.IsUnit) :
    ∃ u t, u.dot u = 1 ∧ 0 ≤ t ∧ t ≤ Real.pi ∧ q.upper = around u t := by
  -- the quaternion has the cosine of half the angle, and the axis by its sine
  obtain ⟨s, hs, hspi, hw, hnorm, -⟩ := exists_toRotationVector_eq hq 0
  obtain ⟨u, hu, hvec⟩ := Vec3.exists_direction q.upper.vec
  refine ⟨u, 2 * s, hu, by linarith, by linarith, ?_⟩
  have hhalf : 2 * s / 2 = s := by ring
  rw [hnorm] at hvec
  rw [around_eq, hhalf]
  exact ext hw (congrArg Vec3.x hvec).symm (congrArg Vec3.y hvec).symm (congrArg Vec3.z hvec).symm

/-- Every rotation turns around an axis. -/
theorem Mat3.IsRotation.exists_around (h : m.IsRotation) :
    ∃ u t, u.dot u = 1 ∧ 0 ≤ t ∧ t ≤ Real.pi ∧ m = around u t := by
  obtain ⟨u, t, hu, ht, htpi, hupper⟩ := (Quaternion.isUnit_ofMat3 h).exists_around
  refine ⟨u, t, hu, ht, htpi, ?_⟩
  rw [← Quaternion.toMat3_around hu, ← hupper, Quaternion.toMat3_upper, Quaternion.toMat3_ofMat3 h]

/-- Lengthening a vector lengthens its leading component. -/
theorem Vec3.leading_smul (a : Vec3 ℝ) {k : ℝ} (hk : 0 < k) :
    (a.smul k).leading = k * a.leading := by
  simp only [leading, smul_eq, abs_mul, mul_le_mul_iff_right₀ (abs_pos.2 hk.ne')]
  split_ifs <;> rfl

namespace RotationVector

/-- The identity has the zero vector, around whatever axis it is seen as a turn. -/
theorem ofMat3_around_zero (hu : u.dot u = 1) : ofMat3 (.around u 0) = u.smul 0 := by
  have hangle : (Mat3.around u 0).HasAngle 0 := hasAngle_around hu le_rfl Real.pi_pos.le
  rw [ofMat3_eq hangle, Real.cos_zero, if_neg (by norm_num), vee_skewPart_around, Real.sin_zero]
  ext <;> simp [Vec3.smul_eq]

/-- The rotation vector of a half turn is the named one of its two axes, half a turn long. -/
theorem exists_ofMat3_halfTurn (hu : u.dot u = 1) :
    ∃ a : Vec3 ℝ, a.Named ∧ Mat3.around u Real.pi = .around a Real.pi ∧
      ofMat3 (.around u Real.pi) = a.smul Real.pi := by
  obtain hnamed | hnamed := Vec3.named_or_named_neg hu
  · exact ⟨u, hnamed, rfl, ofMat3_halfTurn hnamed⟩
  · have hneg : Mat3.around u Real.pi = .around (-u) Real.pi := (Mat3.halfTurn_neg u).symm
    exact ⟨-u, hnamed, hneg, hneg ▸ ofMat3_halfTurn hnamed⟩

/-- The rotation vector of the rotation by an angle is the angle times an axis of it. -/
theorem exists_ofMat3_around (hu : u.dot u = 1) (hfar : t = 0 ∨ 1 / 1000 ≤ t) (htpi : t ≤ Real.pi) :
    ∃ a : Vec3 ℝ, a.dot a = 1 ∧ Mat3.around u t = .around a t ∧
      ofMat3 (.around u t) = a.smul t := by
  obtain rfl | hfar := hfar
  · exact ⟨u, hu, rfl, ofMat3_around_zero hu⟩
  obtain hlt | rfl := htpi.lt_or_eq
  · exact ⟨u, hu, rfl, ofMat3_around hu hfar hlt⟩
  · obtain ⟨a, ha, haround, hv⟩ := exists_ofMat3_halfTurn hu
    exact ⟨a, ha.unit, haround, hv⟩

/-- The exponential takes the rotation vector back to the rotation. -/
theorem toMat3_ofMat3_around (hu : u.dot u = 1) (hfar : t = 0 ∨ 1 / 1000 ≤ t)
    (htpi : t ≤ Real.pi) :
    (ofMat3 (.around u t)).norm = t ∧ toMat3 (ofMat3 (.around u t)) = .around u t := by
  have habs : |t| = t := abs_of_nonneg (by obtain rfl | h := hfar <;> linarith)
  obtain ⟨a, ha, haround, hv⟩ := exists_ofMat3_around hu hfar htpi
  rw [hv, haround, toMat3_smul ha (by rwa [habs]), Vec3.norm_smul, Vec3.norm_of_unit ha, mul_one,
    habs]
  exact ⟨rfl, rfl⟩

/-! ## Undefined quotients -/

/-- The cosine of the angle is always defined. -/
theorem cosAngle_value (m : Mat3 ℝ) : cosAngle (m.map value) = value (cosAngle m) := by
  have hcos : ((m.map value).trace - lit 1) / lit 2 = value ((m.trace - lit 1) / lit 2) :=
    value_div_lit _ two_ne_zero
  rw [cosAngle, hcos]
  rfl

/-- Of the columns of a matrix of positive trace, the one that is chosen is divided by the root of a
positive entry. -/
theorem leadingColumn_value {b : Mat3 ℝ} (hb : 0 < b.trace) :
    let b' := b.map value
    Vec3.select (both (atMost b'.yy b'.xx) (atMost b'.zz b'.xx))
      (b'.col₁.sdiv (Scalar.sqrt b'.xx)) (Vec3.select (atMost b'.zz b'.yy)
        (b'.col₂.sdiv (Scalar.sqrt b'.yy)) (b'.col₃.sdiv (Scalar.sqrt b'.zz))) =
      (leadingColumn b).map value := by
  intro b'
  have hcolumn (v : Vec3 ℝ) {d : ℝ} (hd : 0 < d) :
      (v.map value).sdiv (Scalar.sqrt (value d)) = (v.sdiv (Real.sqrt d)).map value := by
    rw [sqrt_value hd.le]
    exact Vec3.sdiv_value v (Real.sqrt_pos.2 hd).ne'
  have hx : both (atMost b'.yy b'.xx) (atMost b'.zz b'.xx) =
      value (both (atMost b.yy b.xx) (atMost b.zz b.xx)) := value_both _ _
  have hy : atMost b'.zz b'.yy = value (atMost b.zz b.yy) := value_atMost _ _
  rw [trace_eq] at hb
  simp only [hx, hy, Vec3.select_value, both_ne_zero, atMost_ne_zero, leadingColumn]
  -- a largest entry of the diagonal is positive
  split_ifs with h₁ h₂
  · exact hcolumn b.col₁ (by linarith [h₁.1, h₁.2])
  · have hxy := le_of_not_largest (fun h => h₁ (h.imp le_of_lt le_of_lt)) h₂
    exact hcolumn b.col₂ (by linarith)
  · have hyz := (not_le.1 h₂).le
    have hxz := le_of_not_largest (fun h => h₁ (h.symm.imp le_of_lt le_of_lt)) hyz
    exact hcolumn b.col₃ (by linarith)

/-- The symmetric part is divided by one less the cosine, and the axis by its length. -/
theorem axis_value {c : ℝ} (w : Vec3 ℝ) (hc : c ≠ 1) (htrace : 0 < (projection m c).trace)
    (hnorm : (leadingColumn (projection m c)).norm ≠ 0) :
    axis (m.map value) (value c) (w.map value) = (axis m c w).map value := by
  have hdivisor : lit 1 - c ≠ 0 := by
    rw [lit_one]
    exact sub_ne_zero.2 hc.symm
  have htwo : (m.map value + (m.map value).transpose).sdiv (lit 2) =
      ((m + m.transpose).sdiv (lit 2)).map value :=
    Mat3.sdiv_value (m + m.transpose) (Nat.cast_ne_zero.2 two_ne_zero)
  -- both divisors differ from zero: two, and one less the cosine
  have hprojection : ((m.map value + (m.map value).transpose).sdiv (lit 2) -
      Mat3.one.smul (value c)).sdiv (lit 1 - value c) = (projection m c).map value := by
    rw [htwo]
    exact Mat3.sdiv_value ((m + m.transpose).sdiv (lit 2) - Mat3.one.smul c) hdivisor
  have hunit (a : Vec3 ℝ) (ha : a.norm ≠ 0) :
      (a.map value).sdiv (a.map value).norm = (a.sdiv a.norm).map value := by
    rw [Vec3.norm_value]
    exact Vec3.sdiv_value a ha
  rw [axis_eq]
  simp only [axis, hprojection, leadingColumn_value htrace, hunit _ hnorm]
  -- what is left is the choice of the sign, which selects between two defined vectors
  generalize (leadingColumn (projection m c)).sdiv _ = a
  refine (Vec3.select_map_value (less (a.dot w) (lit 0)) (-a) a).trans ?_
  rw [Vec3.select_eq_ite]
  simp only [less_ne_zero, lit_zero]

/-- The symmetric part of a rotation is the projection to the axis, and its leading column is the
axis. -/
theorem leadingColumn_around (hu : u.dot u = 1) (hcos : Real.cos t ≠ 1) :
    (leadingColumn (projection (.around u t) (Real.cos t))).norm = 1 ∧
      (projection (.around u t) (Real.cos t)).trace = 1 := by
  rw [projection_around u hcos]
  constructor
  · obtain hnamed | hnamed := Vec3.named_or_named_neg hu
    · rw [leadingColumn_projection hnamed, Vec3.norm_of_unit hu]
    · rw [← Mat3.halfTurn_neg, leadingColumn_projection hnamed, Vec3.norm_of_unit hnamed.unit]
  · rw [projection_halfTurn, trace_eq, ← hu, Vec3.dot_eq]

/-- The rotation vector of a rotation is defined, whichever way it is found. -/
theorem ofMat3_value (h : m.IsRotation) : ofMat3 (m.map value) = (ofMat3 m).map value := by
  obtain ⟨u, t, hu, ht, htpi, rfl⟩ := h.exists_around
  have hangle : (Mat3.around u t).HasAngle t := hasAngle_around hu ht htpi
  let m' := (Mat3.around u t).map value
  let w := (skewPart (.around u t)).vee
  have hcos : cosAngle m' = value (Real.cos t) := by rw [cosAngle_value, cosAngle_eq hangle]
  have hatan : Scalar.atan2 ((w.map value).norm / lit 2) (value (Real.cos t)) = value t := by
    have hhalf : (w.map value).norm / lit 2 = value (w.norm / lit 2) := by
      rw [Vec3.norm_value]
      exact value_div_lit _ two_ne_zero
    rw [hhalf]
    exact congrArg value (atan2_of_hasAngle hangle)
  -- the bound for the choice is a quotient of literals
  have hnear : (nearHalfTurn : Partial ℝ) = value (-(99 / 100)) :=
    calc (nearHalfTurn : Partial ℝ)
        = value (nearHalfTurn : ℝ) := congrArg (- ·) (value_div_lit (lit 99) (by norm_num))
      _ = value (-(99 / 100)) := congrArg value (by simp [nearHalfTurn])
  calc ofMat3 m'
      = Vec3.select (less (cosAngle m') nearHalfTurn)
          ((axis m' (cosAngle m') (w.map value)).smul
            (Scalar.atan2 ((w.map value).norm / lit 2) (cosAngle m')))
          ((w.map value).smul (Coefficient.halfCosecant
            (Scalar.atan2 ((w.map value).norm / lit 2) (cosAngle m')))) := rfl
    _ = Vec3.select (value (less (Real.cos t) (-(99 / 100))))
          ((axis m' (value (Real.cos t)) (w.map value)).smul (value t))
          ((w.map value).smul (Coefficient.halfCosecant (value t))) := by
        rw [hcos, hatan, hnear]
        rfl
    _ = (ofMat3 (.around u t)).map value := by
        rw [Vec3.select_value, ofMat3_eq hangle]
        simp only [less_ne_zero]
        split_ifs with hlow
        · -- near a half turn the cosine is not one
          have hone : Real.cos t ≠ 1 := by linarith
          obtain ⟨hunit, htrace⟩ := leadingColumn_around hu hone
          rw [axis_value w hone (htrace ▸ one_pos) (hunit ▸ one_ne_zero)]
          rfl
        · -- elsewhere the sine vanishes at zero only
          have hsine : 1 / 1000 ≤ |t| → Real.sin t ≠ 0 := by
            intro hfar
            rw [abs_of_nonneg ht] at hfar
            have hlt : t < Real.pi := by
              refine htpi.lt_of_ne ?_
              rintro rfl
              rw [Real.cos_pi] at hlow
              linarith
            exact (Real.sin_pos_of_pos_of_lt_pi (by linarith) hlt).ne'
          rw [Coefficient.halfCosecant_value hsine]
          rfl

/-- The matrix of a rotation vector is defined, that of the zero vector included. -/
theorem toMat3_value (v : Vec3 ℝ) : toMat3 (v.map value) = (toMat3 v).map value := by
  simp only [toMat3, Vec3.norm_value, Coefficient.sinc_value, Coefficient.cosc_value]
  rfl

/-- **The logarithm of a rotation.** The rotation vector of a rotation is as long as the angle,
which is at most a half turn, and its matrix is the rotation. At a half turn the leading component
is positive. No undefined quotient or root of the way that is not chosen reaches the vector. -/
theorem logarithm_of_rotation (h : m.IsRotation) :
    ofMat3 (m.map value) = (ofMat3 m).map value ∧
    toMat3 ((ofMat3 m).map value) = (toMat3 (ofMat3 m)).map value ∧
    (∃ t, 0 ≤ t ∧ t ≤ Real.pi ∧ Real.cos t = (m.trace - 1) / 2) ∧
    ∀ t, 0 ≤ t → t ≤ Real.pi → Real.cos t = (m.trace - 1) / 2 → t = 0 ∨ 1 / 1000 ≤ t →
      (ofMat3 m).norm = t ∧ toMat3 (ofMat3 m) = m ∧ (m.trace = -1 → 0 < (ofMat3 m).leading) := by
  refine ⟨ofMat3_value h, toMat3_value _, ?_, ?_⟩
  · obtain ⟨t, hangle⟩ := exists_hasAngle h
    exact ⟨t, hangle.nonneg, hangle.le_pi, (half_trace hangle).symm⟩
  · intro t ht htpi hcos hfar
    obtain ⟨u, s, hu, hs, hspi, rfl⟩ := h.exists_around
    -- the cosine tells angles of at most a half turn apart
    rw [half_trace (hasAngle_around hu hs hspi)] at hcos
    obtain rfl : t = s := Real.injOn_cos ⟨ht, htpi⟩ ⟨hs, hspi⟩ hcos
    obtain ⟨hnorm, hmatrix⟩ := toMat3_ofMat3_around hu hfar htpi
    refine ⟨hnorm, hmatrix, fun htrace => ?_⟩
    obtain rfl : t = Real.pi := by
      apply Real.injOn_cos ⟨ht, htpi⟩ ⟨Real.pi_pos.le, le_rfl⟩
      rw [trace_around hu] at htrace
      rw [Real.cos_pi]
      linarith
    obtain ⟨a, hnamed, -, hv⟩ := exists_ofMat3_halfTurn hu
    rw [hv, Vec3.leading_smul a Real.pi_pos]
    exact mul_pos Real.pi_pos hnamed.leading

/-- A half turn whose axis has two components of largest magnitude and one that is zero. The skew
part would be divided by the sine of a half turn. -/
theorem logarithm_of_tiedHalfTurn :
    let m : Mat3 ℝ := ⟨0, -1, 0, -1, 0, 0, 0, 0, -1⟩
    m.IsRotation ∧ Real.cos Real.pi = (m.trace - 1) / 2 ∧
      Coefficient.halfCosecant (value Real.pi) = undefined ∧
      ofMat3 (m.map value) = (ofMat3 m).map value ∧
      toMat3 ((ofMat3 m).map value) = (toMat3 (ofMat3 m)).map value ∧
      (ofMat3 m).norm = Real.pi ∧ toMat3 (ofMat3 m) = m ∧ 0 < (ofMat3 m).leading := by
  intro m
  have hrotation : m.IsRotation := by
    constructor
    · ext <;> simp only [m, Mat3.mul_eq, Mat3.transpose, Mat3.one_def] <;> norm_num
    · norm_num [m, Mat3.determinant]
  have htrace : m.trace = -1 := by norm_num [m, trace_eq]
  have hcos : Real.cos Real.pi = (m.trace - 1) / 2 := by
    rw [htrace, Real.cos_pi]
    norm_num
  have hfar : 1 / 1000 ≤ Real.pi := by linarith [Real.pi_gt_three]
  -- the branch that is not selected divides by the sine of a half turn
  have hundefined : Coefficient.halfCosecant (value Real.pi) = undefined := by
    rw [Coefficient.halfCosecant, Coefficient.nearZero_value, abs_of_pos Real.pi_pos,
      if_neg hfar.not_gt]
    exact if_pos (mul_eq_zero_of_right _ Real.sin_pi)
  obtain ⟨hdefined, hmatrix, -, hangle⟩ := logarithm_of_rotation hrotation
  obtain ⟨hnorm, hback, hleading⟩ := hangle Real.pi Real.pi_pos.le le_rfl hcos (.inr hfar)
  exact ⟨hrotation, hcos, hundefined, hdefined, hmatrix, hnorm, hback, hleading htrace⟩

end RotationVector

end Attitude
