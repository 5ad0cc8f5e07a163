import Attitude.Proofs.Exact.Coefficient
import Attitude.Proofs.Rotation.Axis
import Attitude.RotationVector
import Mathlib.Analysis.Real.Pi.Bounds

/-!
# The three logarithms

The rotation vector of a matrix, of a unit quaternion and of parameters, over the real numbers. Each
one is first written with the angle that it computes, and its length is then read off.

The vector of a matrix and the one of a unit quaternion are at most a half turn long, also where the
angle is small and a limit takes the place of a quotient. The vector of parameters is four times the
arc tangent of their length: it is at most a half turn long in the unit ball and longer outside.
-/

namespace Attitude

/-! ## Rotation matrices -/

/-- `t` is the angle of a rotation by at most a half turn, as the trace and the skew part of its
matrix tell. -/
structure Mat3.HasAngle (m : Mat3 ℝ) (t : ℝ) : Prop where
  nonneg : 0 ≤ t
  le_pi : t ≤ Real.pi
  trace : m.trace = 1 + 2 * Real.cos t
  skewPart : (RotationVector.skewPart m).vee.norm = 2 * Real.sin t

namespace RotationVector

variable {m : Mat3 ℝ} {t : ℝ}

/-- Twice the skew part of a matrix as a vector. -/
theorem vee_skewPart (m : Mat3 ℝ) :
    (skewPart m).vee = ⟨m.zy - m.yz, m.xz - m.zx, m.yx - m.xy⟩ := rfl

/-- The trace, without the zero that the sum starts from. -/
theorem trace_eq (m : Mat3 ℝ) : m.trace = m.xx + m.yy + m.zz := by
  simp [Mat3.trace]

/-- The trace of a rotation and the length of its skew part are a point on a circle. -/
theorem trace_sq_add_skewPart (h : m.IsRotation) :
    (m.trace - 1) * (m.trace - 1) + (skewPart m).vee.dot (skewPart m).vee = 4 := by
  have e := h.entries
  rw [vee_skewPart, Vec3.dot_eq, trace_eq]
  linear_combination e.row₁ + e.row₂ + e.row₃ - 2 * e.xx - 2 * e.yy - 2 * e.zz

/-- Each rotation has an angle: half the trace less one, and half the length of the skew part, are a
point of the upper half circle. -/
theorem exists_hasAngle (h : m.IsRotation) : ∃ t, m.HasAngle t := by
  have hcircle : (m.trace - 1) / 2 * ((m.trace - 1) / 2) +
      (skewPart m).vee.norm / 2 * ((skewPart m).vee.norm / 2) = 1 := by
    linear_combination 1 / 4 * trace_sq_add_skewPart h + 1 / 4 * (skewPart m).vee.norm_mul_self
  have hs : 0 ≤ (skewPart m).vee.norm / 2 := by linarith [(skewPart m).vee.norm_nonneg]
  obtain ⟨t, ht, htpi, hcos, hsin, -⟩ := exists_angle hcircle hs
  exact ⟨t, ht, htpi, by linarith, by linarith⟩

/-- The cosine of the angle is read off the trace. -/
theorem half_trace (h : m.HasAngle t) : (m.trace - 1) / 2 = Real.cos t := by
  linarith [h.trace]

/-- The angle is found from its sine and its cosine. -/
theorem atan2_of_hasAngle (h : m.HasAngle t) :
    Scalar.atan2 ((skewPart m).vee.norm / 2) (Real.cos t) = t := by
  have hsin : (skewPart m).vee.norm / 2 = Real.sin t := by linarith [h.skewPart]
  rw [hsin]
  exact atan2_sin_cos ⟨(neg_lt_zero.2 Real.pi_pos).trans_le h.nonneg, h.le_pi⟩

/-- For a rotation the clamp to the interval of cosines changes nothing. -/
theorem cosAngle_eq (h : m.HasAngle t) : cosAngle m = Real.cos t := by
  show max (min ((m.trace - lit 1) / lit 2) (lit 1)) (-lit 1) = _
  simp only [lit_one, Nat.cast_ofNat, half_trace h]
  rw [min_eq_left (Real.cos_le_one t), max_eq_left (Real.neg_one_le_cos t)]

/-- The vector of a rotation is the angle times the axis of the symmetric part, or the skew part
times a coefficient. -/
theorem ofMat3_eq (h : m.HasAngle t) : ofMat3 m =
    if Real.cos t < -(99 / 100) then (axis m (Real.cos t) (skewPart m).vee).smul t
    else (skewPart m).vee.smul (Coefficient.halfCosecant t) := by
  have hnear : (nearHalfTurn : ℝ) = -(99 / 100) := by simp [nearHalfTurn]
  simp only [ofMat3, cosAngle_eq h, Nat.cast_ofNat, atan2_of_hasAngle h, Vec3.select_eq_ite,
    less_ne_zero, hnear]

/-- The trace of a rotation around an axis. -/
theorem trace_around {u : Vec3 ℝ} (hu : u.dot u = 1) (t : ℝ) :
    (Mat3.around u t).trace = 1 + 2 * Real.cos t := by
  rw [Vec3.dot_eq] at hu
  rw [trace_eq]
  simp only [Mat3.around]
  linear_combination (1 - Real.cos t) * hu

/-- The skew part of a rotation around an axis has the axis, and vanishes at a half turn. -/
theorem vee_skewPart_around (u : Vec3 ℝ) (t : ℝ) :
    (skewPart (.around u t)).vee = u.smul (2 * Real.sin t) := by
  rw [vee_skewPart]
  ext <;> simp only [Mat3.around, Vec3.smul_eq] <;> ring

/-- A rotation around an axis by at most a half turn has the angle it is given. -/
theorem hasAngle_around {u : Vec3 ℝ} (hu : u.dot u = 1) (ht : 0 ≤ t) (htpi : t ≤ Real.pi) :
    (Mat3.around u t).HasAngle t where
  nonneg := ht
  le_pi := htpi
  trace := trace_around hu t
  skewPart := by
    have hsin : 0 ≤ Real.sin t := Real.sin_nonneg_of_nonneg_of_le_pi ht htpi
    rw [vee_skewPart_around, Vec3.norm_smul, Vec3.norm_of_unit hu, mul_one,
      abs_of_nonneg (mul_nonneg zero_le_two hsin)]

/-- The axis has length one, or is zero. -/
theorem norm_axis_le (m : Mat3 ℝ) (c : ℝ) (w : Vec3 ℝ) : (axis m c w).norm ≤ 1 := by
  unfold axis
  rw [Vec3.select_eq_ite]
  split_ifs
  · rw [Vec3.norm_neg]
    exact Vec3.norm_normalize_le _
  · exact Vec3.norm_normalize_le _

end RotationVector

/-- The coefficient of the skew part gives it a length of at most a half turn. -/
theorem Coefficient.halfCosecant_mul_le {t : ℝ} (ht : 0 ≤ t) (htpi : t ≤ Real.pi) :
    |halfCosecant t| * (2 * Real.sin t) ≤ Real.pi := by
  have hsin : 0 ≤ Real.sin t := Real.sin_nonneg_of_nonneg_of_le_pi ht htpi
  rw [halfCosecant_eq, abs_of_nonneg ht]
  split_ifs with hsmall
  · -- the series is at most one, and the skew part no longer than two
    have hsq : t * t ≤ 1 := by nlinarith
    have hquartic : t * t * (t * t) ≤ 1 := by nlinarith [mul_self_nonneg t]
    rw [abs_of_nonneg (by positivity)]
    nlinarith [Real.sin_le_one t, Real.pi_gt_three, mul_self_nonneg t]
  · rw [abs_of_nonneg (div_nonneg ht (mul_nonneg zero_le_two hsin))]
    -- at a half turn both the quotient and the sine are zero here
    rcases hsin.eq_or_lt with hzero | hpos
    · rw [← hzero, mul_zero, mul_zero]
      exact Real.pi_pos.le
    · rw [div_mul_cancel₀ t (mul_ne_zero two_ne_zero hpos.ne')]
      exact htpi

/-- The rotation vector of a matrix is at most a half turn long. -/
theorem RotationVector.norm_ofMat3_le {m : Mat3 ℝ} (h : m.IsRotation) :
    (ofMat3 m).norm ≤ Real.pi := by
  obtain ⟨t, ht⟩ := exists_hasAngle h
  rw [ofMat3_eq ht]
  split_ifs
  · calc ((axis m (Real.cos t) (skewPart m).vee).smul t).norm
        = t * (axis m (Real.cos t) (skewPart m).vee).norm := by
          rw [Vec3.norm_smul, abs_of_nonneg ht.nonneg]
      _ ≤ t * 1 := mul_le_mul_of_nonneg_left (norm_axis_le _ _ _) ht.nonneg
      _ ≤ Real.pi := by rw [mul_one]; exact ht.le_pi
  · rw [Vec3.norm_smul, ht.skewPart]
    exact Coefficient.halfCosecant_mul_le ht.nonneg ht.le_pi

/-! ## Unit quaternions -/

namespace Quaternion

variable {q : Quaternion ℝ} {eps : ℝ}

/-- The vector part of a quaternion has what the scalar part leaves of its length. -/
theorem dot_vec_self (q : Quaternion ℝ) : q.vec.dot q.vec = q.normSq - q.w * q.w := by
  simp only [Vec3.dot_eq, vec, normSq]
  ring

/-- The scalar part and the length of the vector part are a point on a circle. -/
theorem IsUnit.w_sq_add_norm_vec (hq : q.IsUnit) : q.w * q.w + q.vec.norm * q.vec.norm = 1 := by
  rw [Vec3.norm_mul_self, dot_vec_self, hq.normSq_eq]
  ring

/-- Half of the angle, and the vector with it. -/
theorem exists_toRotationVector_eq (hq : q.IsUnit) (eps : ℝ) : ∃ t, 0 ≤ t ∧ t ≤ Real.pi / 2 ∧
    q.upper.w = Real.cos t ∧ q.upper.vec.norm = Real.sin t ∧
    q.toRotationVector eps =
      q.upper.vec.smul (if eps < Real.sin t then 2 * t / Real.sin t else 2 / Real.cos t) := by
  obtain ⟨t, ht, htpi, hcos, hsin, hatan⟩ :=
    exists_angle hq.upper.w_sq_add_norm_vec q.upper.vec.norm_nonneg
  refine ⟨t, ht, ?_, hcos, hsin, ?_⟩
  · -- beyond a right angle the scalar part would be negative
    by_contra hlt
    have hneg : Real.cos t < 0 :=
      Real.cos_neg_of_pi_div_two_lt_of_lt (not_le.1 hlt) (by linarith [Real.pi_pos])
    linarith [q.upper_w_nonneg]
  · rw [hcos, hsin] at hatan
    simp only [toRotationVector, Attitude.select_eq_ite, less_ne_zero, Nat.cast_ofNat, hcos, hsin,
      hatan]

/-- The rotation vector of a quaternion whose upper one turns by `t` around `u`: the angle around
the axis, unless the vector part is short and not zero. -/
theorem toRotationVector_of_upper {u : Vec3 ℝ} {t : ℝ} (hu : u.dot u = 1) (ht : 0 ≤ t)
    (htpi : t ≤ Real.pi) (hupper : q.upper = around u t)
    (hlong : t = 0 ∨ eps < Real.sin (t / 2)) : q.toRotationVector eps = u.smul t := by
  -- the vector is read off the upper quaternion, which is its own upper one
  have hself : (around u t).upper = around u t := upper_around ht htpi
  have hsame : q.toRotationVector eps = (around u t).toRotationVector eps := by
    simp only [toRotationVector, hself, hupper]
  obtain ⟨s, hs, hspi, hw, -, hv⟩ := exists_toRotationVector_eq (isUnit_around hu t) eps
  rw [hself, w_around] at hw
  obtain rfl : t / 2 = s :=
    Real.injOn_cos ⟨by linarith, by linarith⟩ ⟨hs, by linarith [Real.pi_pos]⟩ hw
  rw [hsame, hv, hself, vec_around]
  obtain rfl | hpos := ht.eq_or_lt
  · ext <;> simp [Vec3.smul_eq]
  · have hsin : 0 < Real.sin (t / 2) := Real.sin_pos_of_pos_of_lt_pi (by linarith) (by linarith)
    rw [if_pos (hlong.resolve_left hpos.ne')]
    ext <;> simp only [Vec3.smul_eq] <;> field_simp

/-- The rotation vector of a unit quaternion is at most a half turn long. -/
theorem norm_toRotationVector_le (hq : q.IsUnit) (heps : 0 ≤ eps) (heps' : eps ≤ 1 / 2) :
    (q.toRotationVector eps).norm ≤ Real.pi := by
  obtain ⟨t, ht, htpi, hcos, hsin, hv⟩ := exists_toRotationVector_eq hq eps
  have hcos0 : 0 ≤ Real.cos t := hcos ▸ q.upper_w_nonneg
  rw [hv, Vec3.norm_smul, hsin]
  split_ifs with hlt
  · have hpos : 0 < Real.sin t := heps.trans_lt hlt
    rw [abs_of_nonneg (div_nonneg (mul_nonneg zero_le_two ht) hpos.le), div_mul_cancel₀ _ hpos.ne']
    linarith
  · -- a short vector part leaves a scalar part of more than a half
    have hshort : Real.sin t ≤ 1 / 2 := (not_lt.1 hlt).trans heps'
    have hsin0 : 0 ≤ Real.sin t := hsin ▸ q.upper.vec.norm_nonneg
    have hlong : 1 / 2 ≤ Real.cos t := by nlinarith [Real.sin_sq_add_cos_sq t]
    have hpos : 0 < Real.cos t := by linarith
    rw [abs_of_nonneg (div_nonneg zero_le_two hcos0), div_mul_eq_mul_div, div_le_iff₀ hpos]
    nlinarith [Real.pi_gt_three]

end Quaternion

/-! ## Parameters -/

namespace Rodrigues

variable (r : Vec3 ℝ) (eps : ℝ)

/-- The rotation vector of parameters as a case distinction. Up to `eps` a limit takes the place of
the quotient. -/
theorem toRotationVector_eq : toRotationVector eps r =
    r.smul (if eps < r.norm then 4 * Real.arctan r.norm / r.norm else 4) := by
  simp only [toRotationVector, select_eq_ite, less_ne_zero, Nat.cast_ofNat, atan_eq]

variable {eps}

/-- The length of the rotation vector of parameters, in either case. -/
theorem norm_toRotationVector (heps : 0 ≤ eps) : (toRotationVector eps r).norm =
    if eps < r.norm then 4 * Real.arctan r.norm else 4 * r.norm := by
  rw [toRotationVector_eq, Vec3.norm_smul]
  split_ifs with hlt
  · have hpos : 0 < r.norm := heps.trans_lt hlt
    have hangle : 0 ≤ Real.arctan r.norm := Real.arctan_nonneg.2 hpos.le
    rw [abs_of_nonneg (div_nonneg (mul_nonneg zero_le_four hangle) hpos.le),
      div_mul_cancel₀ _ hpos.ne']
  · rw [abs_of_nonneg zero_le_four]

/-- The rotation vector of parameters is at most a half turn long in the unit ball, and only
there. -/
theorem norm_toRotationVector_le_iff (heps : 0 ≤ eps) (heps' : eps ≤ 1 / 2) :
    (toRotationVector eps r).norm ≤ Real.pi ↔ r.norm ≤ 1 := by
  rw [norm_toRotationVector r heps]
  split_ifs with hlt
  · rw [← Real.arctan_le_arctan_iff (y := 1), Real.arctan_one]
    constructor <;> intro h <;> linarith
  · have hshort : r.norm ≤ 1 / 2 := (not_lt.1 hlt).trans heps'
    constructor <;> intro _ <;> linarith [Real.pi_gt_three]

end Rodrigues

end Attitude
