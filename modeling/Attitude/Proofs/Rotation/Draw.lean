import Attitude.Draw
import Attitude.Proofs.Rotation.QuaternionLogarithm

/-!
# The rotation of a draw

Four numbers that are not all zero are scaled to a unit quaternion, and its rotation is written as a
matrix, a quaternion or a rotation vector. The matrix is the one of the quaternion. The rotation
vector belongs to the quaternion or to its negative, whichever has no negative scalar part, so its
angle is at most a half turn (`IsUnit.exists_toDrawnRotationVector_eq`). For angles under one
thousandth a series takes the place of a quotient. At the angle zero that loses nothing, as the
vector part vanishes.

A half turn has two rotation vectors, of which one is drawn. What follows from a rotation vector
with an angle of at most a half turn is therefore stated for every one of them (`HasVector`), and
`IsUnit.hasVector_iff` counts them.
-/

namespace Attitude.Quaternion

variable {q : Quaternion ℝ} {v : Vec3 ℝ}

/-! ## The quaternion of a draw -/

/-- A draw that is not zero is scaled to length one. -/
theorem ofDraw_of_ne_zero {x y z w : ℝ} (h : (x, y, z, w) ≠ 0) :
    let n := Real.sqrt (x * x + y * y + z * z + w * w)
    let q : Quaternion ℝ := ⟨w / n, x / n, y / n, z / n⟩
    ofDraw x y z w = .ok q ∧ q.IsUnit := by
  intro n q
  have hpos : 0 < x * x + y * y + z * z + w * w := by
    have hx := mul_self_nonneg x
    have hy := mul_self_nonneg y
    have hz := mul_self_nonneg z
    have hw := mul_self_nonneg w
    -- a sum of squares that is not positive has no square other than zero
    by_contra hle
    refine h (Prod.ext ?_ (Prod.ext ?_ (Prod.ext ?_ ?_)))
    · exact mul_self_eq_zero.1 (show x * x = 0 by linarith)
    · exact mul_self_eq_zero.1 (show y * y = 0 by linarith)
    · exact mul_self_eq_zero.1 (show z * z = 0 by linarith)
    · exact mul_self_eq_zero.1 (show w * w = 0 by linarith)
  have hn : n ≠ 0 := (Real.sqrt_pos.2 hpos).ne'
  have hsq : n * n = x * x + y * y + z * z + w * w := Real.mul_self_sqrt hpos.le
  constructor
  · have hzero : Ground.same n 0 = false := by
      rw [Bool.eq_false_iff, ne_eq, Ground.same_iff]
      exact hn
    simp only [ofDraw, sqrt_eq, lit_zero, zero_add]
    rw [if_neg (by rw [hzero]; exact Bool.false_ne_true)]
  · show w / n * (w / n) + x / n * (x / n) + y / n * (y / n) + z / n * (z / n) = 1
    field_simp
    linarith

/-! ## Its matrix -/

/-- The order in which the diagonal is summed up does not matter to real numbers. -/
theorem toDrawnMatrix_eq (q : Quaternion ℝ) : q.toDrawnMatrix = q.toMat3 := by
  ext <;> simp only [toDrawnMatrix, toMat3_eq, sq] <;> ring

/-! ## Its rotation vector -/

/-- The bound under which the series is taken, without literals. -/
theorem drawnSeriesBound_eq : (drawnSeriesBound : ℝ) = 1 / 1000 := by
  simp only [drawnSeriesBound, lit_one, Nat.cast_ofNat]

/-- The angle of the rotation of a unit quaternion, at most a half turn. -/
noncomputable def angle (q : Quaternion ℝ) : ℝ := lit 2 * Real.arccos |q.w|

theorem angle_eq (q : Quaternion ℝ) : q.angle = 2 * Real.arccos |q.w| := by
  simp only [angle, Nat.cast_ofNat]

theorem angle_nonneg (q : Quaternion ℝ) : 0 ≤ q.angle := by
  rw [angle_eq]
  exact mul_nonneg zero_le_two (Real.arccos_nonneg _)

/-- An angle is at most a half turn, as the sign of the quaternion is left out of it. -/
theorem angle_le_pi (q : Quaternion ℝ) : q.angle ≤ Real.pi := by
  have hquarter := Real.arccos_le_pi_div_two.2 (abs_nonneg q.w)
  rw [angle_eq]
  linarith

/-- The angle is found from the scalar part of a turn by at most a half turn. -/
theorem angle_eq_of_cos {t : ℝ} (ht : 0 ≤ t) (htpi : t ≤ Real.pi) (hw : |q.w| = Real.cos (t / 2)) :
    q.angle = t := by
  rw [angle_eq, hw, Real.arccos_cos (by linarith) (by linarith)]
  ring

theorem opposite_opposite (q : Quaternion ℝ) : - -q = q := by
  simp only [neg_eq, neg_neg]

/-- The principal quaternion is one of the two that have the same matrix. -/
theorem principal_cases (q : Quaternion ℝ) : q.principal = q ∨ q.principal = -q := by
  unfold principal
  split
  · split
    · exact .inr rfl
    · exact .inl rfl
  · exact .inl rfl

/-- The principal one of a quaternion and its negative has no negative scalar part. -/
theorem w_principal (q : Quaternion ℝ) : q.principal.w = |q.w| := by
  by_cases hw : q.w = 0
  · obtain h | h := q.principal_cases
    · rw [h, hw, abs_zero]
    · rw [h, neg_eq, hw, abs_zero, neg_zero]
  · have hsame : Ground.same q.w 0 = false := by
      rw [Bool.eq_false_iff, ne_eq, Ground.same_iff]
      exact hw
    have hfirst : q.principal = if q.w < 0 then -q else q := by
      simp only [principal, lit_zero, List.find?_cons, hsame, Bool.not_false, Ground.lt_iff]
    rw [hfirst]
    split
    · next hneg => exact (abs_of_neg hneg).symm
    · next hneg => exact (abs_of_nonneg (not_lt.1 hneg)).symm

/-- The choice of the sign does not change the length. -/
theorem IsUnit.principal (hq : q.IsUnit) : q.principal.IsUnit := by
  obtain h | h := q.principal_cases
  · rwa [h]
  · rw [h]
    exact hq.neg

/-- The principal one of a unit quaternion and its negative turns by the angle around an axis. -/
theorem IsUnit.exists_principal_eq (hq : q.IsUnit) :
    ∃ u, u.dot u = 1 ∧ q.principal = around u q.angle := by
  obtain ⟨u, t, hu, ht, htpi, hupper⟩ := hq.principal.exists_around
  have hnonneg : ¬ q.principal.w < 0 := by
    rw [w_principal]
    exact (abs_nonneg _).not_gt
  rw [upper_eq_ite, if_neg hnonneg] at hupper
  have hw : |q.w| = Real.cos (t / 2) := by
    rw [← w_principal, hupper, w_around]
  exact ⟨u, hu, angle_eq_of_cos ht htpi hw ▸ hupper⟩

/-- The rotation vector of a drawn quaternion whose principal one turns by `t` around `u`: the angle
around the axis, where no series takes its place. -/
theorem toDrawnRotationVector_of_principal {u : Vec3 ℝ} {t : ℝ} (hu : u.dot u = 1) (ht : 0 ≤ t)
    (htpi : t ≤ Real.pi) (hprincipal : q.principal = around u t) (hfar : t = 0 ∨ 1 / 1000 ≤ t) :
    q.toDrawnRotationVector = u.smul t := by
  have htwo : (lit 2 : ℝ) = 2 := Nat.cast_ofNat
  -- the principal quaternion has its angle in the upper half plane, so the angle is found again
  have htwice : lit 2 * Scalar.atan2 (around u t).vec.norm (around u t).w = t := by
    rw [norm_vec_around hu ht htpi, w_around, htwo,
      atan2_sin_cos ⟨by linarith [Real.pi_pos], by linarith⟩]
    ring
  unfold toDrawnRotationVector
  simp only [hprincipal, htwice]
  rw [vec_around]
  obtain rfl | hfar := hfar
  · -- the vector part is zero, whatever the factor is
    have hzero : Real.sin (0 / 2) = 0 := by rw [zero_div, Real.sin_zero]
    rw [hzero]
    ext <;> simp [Vec3.smul_eq]
  · -- the quotient by the sine of the half angle cancels against the vector part
    have hbound : ¬ Ground.lt t drawnSeriesBound = true := by
      rw [Ground.lt_iff, drawnSeriesBound_eq]
      exact hfar.not_gt
    have hne : Real.sin (t / 2) ≠ 0 := fun hzero => by
      linarith [eq_zero_of_sin_half_eq_zero ht htpi hzero]
    rw [if_neg hbound, sin_eq, htwo]
    ext <;> simp only [Vec3.smul_eq] <;> field_simp

/-- Where no series is taken the drawn vector has the axis and the angle of the principal
quaternion. -/
theorem IsUnit.exists_toDrawnRotationVector_eq (hq : q.IsUnit)
    (hangle : q.angle = 0 ∨ 1 / 1000 ≤ q.angle) :
    ∃ u, u.dot u = 1 ∧ q.principal = around u q.angle ∧
      q.toDrawnRotationVector = u.smul q.angle := by
  obtain ⟨u, hu, hprincipal⟩ := hq.exists_principal_eq
  exact ⟨u, hu, hprincipal, toDrawnRotationVector_of_principal hu q.angle_nonneg q.angle_le_pi
    hprincipal hangle⟩

/-! ## Every rotation vector of at most a half turn -/

/-- The vector turns by at most a half turn, and it is a rotation vector of the quaternion or of its
negative. -/
def HasVector (q : Quaternion ℝ) (v : Vec3 ℝ) : Prop :=
  ∃ u t, u.dot u = 1 ∧ 0 ≤ t ∧ t ≤ Real.pi ∧ v = u.smul t ∧ (around u t = q ∨ around u t = -q)

/-- The vector is an axis times the angle of the quaternion. -/
theorem HasVector.exists_axis (h : q.HasVector v) : ∃ u, u.dot u = 1 ∧ v = u.smul q.angle ∧
    (around u q.angle = q ∨ around u q.angle = -q) := by
  obtain ⟨u, t, hu, ht, htpi, hv, hq⟩ := h
  have hcos : 0 ≤ Real.cos (t / 2) := Real.cos_nonneg_of_mem_Icc ⟨by linarith, by linarith⟩
  have hw : |q.w| = Real.cos (t / 2) := by
    rw [← abs_of_nonneg hcos, ← w_around (a := u)]
    obtain hq | hq := hq
    · rw [hq]
    · rw [hq, neg_eq, abs_neg]
  have hangle := angle_eq_of_cos ht htpi hw
  exact ⟨u, hu, hangle.symm ▸ hv, hangle.symm ▸ hq⟩

/-- Its length is the angle. -/
theorem HasVector.norm_eq (h : q.HasVector v) : v.norm = q.angle := by
  obtain ⟨u, hu, rfl, -⟩ := h.exists_axis
  rw [Vec3.norm_smul, Vec3.norm_of_unit hu, mul_one, abs_of_nonneg q.angle_nonneg]

/-- Its matrix is the one of the quaternion. -/
theorem HasVector.toMat3_eq (h : q.HasVector v) (hangle : q.angle = 0 ∨ 1 / 1000 ≤ q.angle) :
    RotationVector.toMat3 v = q.toMat3 := by
  obtain ⟨u, hu, rfl, hq⟩ := h.exists_axis
  have hfar : q.angle = 0 ∨ 1 / 1000 ≤ |q.angle| := by
    rwa [abs_of_nonneg q.angle_nonneg]
  rw [RotationVector.toMat3_smul hu hfar, ← toMat3_around hu]
  obtain hq | hq := hq
  · rw [hq]
  · rw [hq, toMat3_neg]

/-- The drawn rotation vector is one. -/
theorem IsUnit.hasVector_drawn (hq : q.IsUnit) (hangle : q.angle = 0 ∨ 1 / 1000 ≤ q.angle) :
    q.HasVector q.toDrawnRotationVector := by
  obtain ⟨u, hu, hprincipal, hvector⟩ := hq.exists_toDrawnRotationVector_eq hangle
  refine ⟨u, q.angle, hu, q.angle_nonneg, q.angle_le_pi, hvector, ?_⟩
  rw [← hprincipal]
  exact q.principal_cases

/-- With the vector part of the quaternion also the rotation vector is the same. -/
theorem smul_eq_of_vec_around {u a : Vec3 ℝ} {t : ℝ} (ht : 0 ≤ t) (htpi : t ≤ Real.pi)
    (h : (around u t).vec = a.smul (Real.sin (t / 2))) : u.smul t = a.smul t := by
  rw [vec_around] at h
  by_cases hsin : Real.sin (t / 2) = 0
  · rw [eq_zero_of_sin_half_eq_zero ht htpi hsin, Vec3.zero_smul, Vec3.zero_smul]
  · have hx := mul_left_cancel₀ hsin (congrArg Vec3.x h)
    have hy := mul_left_cancel₀ hsin (congrArg Vec3.y h)
    have hz := mul_left_cancel₀ hsin (congrArg Vec3.z h)
    rw [Vec3.smul_eq, hx, hy, hz, Vec3.smul_eq]

/-- At a half turn the opposite axis has the opposite quaternion. -/
theorem around_neg_pi (u : Vec3 ℝ) : around (-u) Real.pi = -around u Real.pi := by
  rw [around_eq, around_eq, neg_eq, Real.cos_pi_div_two, neg_zero]
  ext <;> simp only [Vec3.neg_eq, mul_neg]

/-- **Both vectors of a half turn.** Under a half turn the drawn rotation vector is the only one,
and at a half turn there is its opposite besides. -/
theorem IsUnit.hasVector_iff (hq : q.IsUnit) (hangle : q.angle = 0 ∨ 1 / 1000 ≤ q.angle) :
    q.HasVector v ↔
      v = q.toDrawnRotationVector ∨ q.angle = Real.pi ∧ v = -q.toDrawnRotationVector := by
  obtain ⟨a, ha, hprincipal, hdrawn⟩ := hq.exists_toDrawnRotationVector_eq hangle
  constructor
  · intro h
    obtain ⟨u, hu, rfl, hu'⟩ := h.exists_axis
    have hsame : around u q.angle = around a q.angle ∨ around u q.angle = -around a q.angle := by
      rw [← hprincipal]
      obtain hp | hp := q.principal_cases
      · rwa [hp]
      · rw [hp, opposite_opposite]
        exact hu'.symm
    obtain hsame | hopposite := hsame
    · left
      rw [hdrawn]
      refine smul_eq_of_vec_around q.angle_nonneg q.angle_le_pi ?_
      rw [hsame, vec_around]
    · right
      -- the scalar parts are opposite and the same, so both vanish
      have hcos : Real.cos (q.angle / 2) = 0 := by
        have hw := congrArg Quaternion.w hopposite
        rw [neg_eq, w_around, w_around] at hw
        exact self_eq_neg.1 hw
      have hpi : q.angle = Real.pi := by
        refine angle_eq_of_cos Real.pi_pos.le le_rfl ?_
        rw [← w_principal, hprincipal, w_around, hcos, Real.cos_pi_div_two]
      refine ⟨hpi, ?_⟩
      rw [hdrawn, ← Vec3.neg_smul]
      refine smul_eq_of_vec_around q.angle_nonneg q.angle_le_pi ?_
      rw [hopposite, hpi, ← around_neg_pi, vec_around]
  · rintro (rfl | ⟨hpi, rfl⟩)
    · exact hq.hasVector_drawn hangle
    · refine ⟨-a, Real.pi, (Vec3.dot_neg_self a).trans ha, Real.pi_pos.le, le_rfl, ?_, ?_⟩
      · rw [hdrawn, hpi, Vec3.neg_smul]
      · rw [around_neg_pi, ← hpi, ← hprincipal]
        obtain hp | hp := q.principal_cases
        · exact .inr (by rw [hp])
        · exact .inl (by rw [hp, opposite_opposite])

end Attitude.Quaternion
