import Attitude.Proofs.Rotation.Axis
import Attitude.Proofs.Rotation.Logarithm
import Attitude.Proofs.Rotation.OfMatrix

/-!
# Half turns

A rotation by a half turn has two axes, which are opposite to each other, and nothing in its matrix
tells one from the other. `Vec3.Named` picks the one whose leading component is positive: the
component of largest magnitude, and of several such the first.

The rotation vector of a matrix has the named axis (`RotationVector.ofMat3_halfTurn`). A unit
quaternion and parameters have an axis of their own, and their rotation vectors take that one
(`toRotationVector_of_w_eq_zero`, `toRotationVector_of_unit`).
-/

namespace Attitude

/-- The first component of largest magnitude. -/
noncomputable def Vec3.leading (a : Vec3 ℝ) : ℝ :=
  if |a.y| ≤ |a.x| ∧ |a.z| ≤ |a.x| then a.x else if |a.z| ≤ |a.y| then a.y else a.z

/-- A unit vector with a positive leading component. -/
structure Vec3.Named (a : Vec3 ℝ) : Prop where
  unit : a.dot a = 1
  leading : 0 < a.leading

/-- The half turn around a unit vector. -/
noncomputable def Mat3.halfTurn (a : Vec3 ℝ) : Mat3 ℝ := around a Real.pi

variable {a b : Vec3 ℝ} {m : Mat3 ℝ} {eps : ℝ}

/-! ## Two axes -/

/-- The opposite vector has the opposite leading component, as magnitudes do not know the sign. -/
theorem Vec3.leading_neg (a : Vec3 ℝ) : (-a).leading = -a.leading := by
  simp only [leading, neg_eq, abs_neg]
  split_ifs <;> rfl

/-- The leading component of a vector vanishes with the vector only. -/
theorem Vec3.leading_ne_zero (h : a.dot a = 1) : a.leading ≠ 0 := by
  intro hzero
  have hbound : |a.x| ≤ |a.leading| ∧ |a.y| ≤ |a.leading| ∧ |a.z| ≤ |a.leading| := by
    unfold leading
    split_ifs with hx hy
    · exact ⟨le_rfl, hx⟩
    · have hxy := le_of_not_largest (fun h => hx (h.imp le_of_lt le_of_lt)) hy
      exact ⟨hxy, le_rfl, hy⟩
    · have hyz := (not_le.1 hy).le
      have hxz := le_of_not_largest (fun h => hx (h.symm.imp le_of_lt le_of_lt)) hyz
      exact ⟨hxz, hyz, le_rfl⟩
  rw [hzero, abs_zero] at hbound
  obtain ⟨hx, hy, hz⟩ := hbound
  rw [Vec3.dot_eq, abs_nonpos_iff.1 hx, abs_nonpos_iff.1 hy, abs_nonpos_iff.1 hz] at h
  norm_num at h

/-- Of a unit vector and its opposite one is named. -/
theorem Vec3.named_or_named_neg (h : a.dot a = 1) : a.Named ∨ (-a).Named := by
  obtain hneg | hpos := (leading_ne_zero h).lt_or_gt
  · exact .inr ⟨a.dot_neg_self.trans h, by rw [leading_neg]; exact neg_pos.2 hneg⟩
  · exact .inl ⟨h, hpos⟩

/-- Of two opposite vectors at most one is named. -/
theorem Vec3.Named.not_neg (h : a.Named) : ¬ (-a).Named := by
  rintro ⟨-, hneg⟩
  rw [leading_neg] at hneg
  linarith [h.leading]

namespace Mat3

/-- The half turn by its entries. They are quadratic in the axis. -/
theorem halfTurn_eq (a : Vec3 ℝ) : halfTurn a =
    ⟨2 * (a.x * a.x) - 1, 2 * (a.x * a.y), 2 * (a.x * a.z),
     2 * (a.y * a.x), 2 * (a.y * a.y) - 1, 2 * (a.y * a.z),
     2 * (a.z * a.x), 2 * (a.z * a.y), 2 * (a.z * a.z) - 1⟩ := by
  ext <;> simp only [halfTurn, around, Real.cos_pi, Real.sin_pi] <;> ring

theorem isRotation_halfTurn (h : a.dot a = 1) : (halfTurn a).IsRotation :=
  isRotation_around h Real.pi

theorem halfTurn_neg (a : Vec3 ℝ) : halfTurn (-a) = halfTurn a := by
  rw [halfTurn_eq, halfTurn_eq]
  ext <;> simp only [Vec3.neg_eq, neg_mul_neg]

/-- The trace of a half turn is the least there is. -/
theorem trace_halfTurn (h : a.dot a = 1) : (halfTurn a).trace = -1 := by
  rw [Vec3.dot_eq] at h
  rw [RotationVector.trace_eq, halfTurn_eq]
  linarith

end Mat3

/-! ## Unit quaternions -/

namespace Quaternion

variable {q : Quaternion ℝ}

/-- The trace of a rotation depends on the scalar part of its quaternion only. -/
theorem trace_toMat3 (hq : q.IsUnit) : q.toMat3.trace = 4 * (q.w * q.w) - 1 := by
  have hunit : q.w * q.w + q.x * q.x + q.y * q.y + q.z * q.z = 1 := hq
  rw [RotationVector.trace_eq, toMat3_eq]
  linear_combination -hunit

/-- A unit quaternion without a scalar part is a half turn around its vector part. -/
theorem toMat3_of_w_eq_zero (hq : q.IsUnit) (hw : q.w = 0) : q.toMat3 = .halfTurn q.vec := by
  have hunit : q.w * q.w + q.x * q.x + q.y * q.y + q.z * q.z = 1 := hq
  rw [hw] at hunit
  rw [toMat3_eq, hw, Mat3.halfTurn_eq]
  ext <;> simp only [vec] <;> linarith

/-- Without a scalar part the vector part of a unit quaternion is a unit vector. -/
theorem dot_vec_of_w_eq_zero (hq : q.IsUnit) (hw : q.w = 0) : q.vec.dot q.vec = 1 := by
  rw [dot_vec_self, hq.normSq_eq, hw, mul_zero, sub_zero]

/-- A rotation of trace `-1` has quaternions without a scalar part. -/
theorem w_eq_zero_of_trace (hq : q.IsUnit) (htrace : q.toMat3.trace = -1) : q.w = 0 := by
  rw [trace_toMat3 hq] at htrace
  exact mul_self_eq_zero.1 (by linarith)

/-- A unit vector is a unit quaternion without a scalar part. -/
theorem isUnit_ofParts_zero (ha : a.dot a = 1) : (ofParts 0 a).IsUnit := by
  rw [Vec3.dot_eq] at ha
  simp only [IsUnit, normSq, ofParts]
  linear_combination ha

end Quaternion

/-- A half turn has no axes but a vector and its opposite. -/
theorem Mat3.eq_or_eq_neg_of_halfTurn (ha : a.dot a = 1) (hb : b.dot b = 1)
    (h : halfTurn a = halfTurn b) : b = a ∨ b = -a := by
  -- the quaternions of the two matrices have no scalar part
  have hfits {c : Vec3 ℝ} (hc : c.dot c = 1) : (Quaternion.ofParts 0 c).Fits (halfTurn c) := by
    have hunit := Quaternion.isUnit_ofParts_zero hc
    exact Quaternion.toMat3_of_w_eq_zero hunit rfl ▸ hunit.fits
  exact ((hfits ha).eq_or_eq_neg (h ▸ hfits hb)).imp (congrArg Quaternion.vec)
    (congrArg Quaternion.vec)

namespace Quaternion

variable {q : Quaternion ℝ}

/-- The vector part of a quaternion of a half turn is one of its two axes. -/
theorem vec_of_halfTurn (hq : q.IsUnit) (ha : a.dot a = 1) (h : q.toMat3 = .halfTurn a) :
    q.w = 0 ∧ (q.vec = a ∨ q.vec = -a) := by
  have hw : q.w = 0 := w_eq_zero_of_trace hq (h ▸ Mat3.trace_halfTurn ha)
  rw [toMat3_of_w_eq_zero hq hw] at h
  exact ⟨hw, Mat3.eq_or_eq_neg_of_halfTurn ha (dot_vec_of_w_eq_zero hq hw) h.symm⟩

/-- The rotation vector of a quaternion of a half turn has its vector part for axis. -/
theorem toRotationVector_of_w_eq_zero (hq : q.IsUnit) (hw : q.w = 0) (heps : eps < 1) :
    q.toRotationVector eps = q.vec.smul Real.pi := by
  have hupper : q.upper = around q.vec Real.pi := by
    rw [upper_eq_ite, hw, if_neg (lt_irrefl 0), around_eq, Real.cos_pi_div_two, Real.sin_pi_div_two]
    exact ext hw (one_mul _).symm (one_mul _).symm (one_mul _).symm
  exact toRotationVector_of_upper (dot_vec_of_w_eq_zero hq hw) Real.pi_pos.le le_rfl hupper
    (.inr (by rwa [Real.sin_pi_div_two]))

/-- The opposite quaternion has the same rotation vector, except at half turns. -/
theorem toRotationVector_neg (q : Quaternion ℝ) (eps : ℝ) : (-q).toRotationVector eps =
    if q.w = 0 then -q.toRotationVector eps else q.toRotationVector eps := by
  have hw : (-q).w = -q.w := rfl
  split_ifs with h
  · -- neither is replaced by its opposite
    have hq : q.upper = q := by rw [upper_eq_ite, h, if_neg (lt_irrefl 0)]
    have hneg : (-q).upper = -q := by
      rw [upper_eq_ite, hw, h, neg_zero, if_neg (lt_irrefl 0)]
    have hvec : (-q).vec = -q.vec := rfl
    simp only [toRotationVector, hq, hneg, hvec, hw, h, neg_zero, Vec3.norm_neg, Vec3.neg_smul]
  · simp only [toRotationVector, upper_neg q h]

/-- The rotation vector does not tell a unit quaternion from its opposite, unless the rotation is a
half turn. -/
theorem toRotationVector_neg_eq_iff (hq : q.IsUnit) (heps : eps < 1) :
    (-q).toRotationVector eps = q.toRotationVector eps ↔ q.w ≠ 0 := by
  rw [toRotationVector_neg]
  constructor
  · intro h hw
    rw [if_pos hw, toRotationVector_of_w_eq_zero hq hw heps] at h
    -- a vector that is its own opposite is no half turn around an axis
    have hzero := Vec3.dot_self_of_neg_eq h
    rw [Vec3.dot_smul_self, dot_vec_of_w_eq_zero hq hw, mul_one] at hzero
    exact Real.pi_ne_zero (mul_self_eq_zero.1 hzero)
  · intro hw
    rw [if_neg hw]

end Quaternion

/-! ## Parameters -/

namespace Rodrigues

variable {r : Vec3 ℝ}

/-- The unit quaternion of parameters of length one has no scalar part. -/
theorem toQuaternion_of_unit (hr : r.dot r = 1) : toQuaternion r = .ofParts 0 r := by
  rw [toQuaternion_eq, hr]
  ext <;> simp only [Quaternion.ofParts] <;> ring

/-- Parameters of length one are the axis of a half turn. -/
theorem toMat3_of_unit (hr : r.dot r = 1) : toMat3 r = .halfTurn r := by
  have hunit := isUnit_toQuaternion r
  rw [toQuaternion_of_unit hr] at hunit
  rw [toMat3_eq, toQuaternion_of_unit hr]
  exact Quaternion.toMat3_of_w_eq_zero hunit rfl

/-- Parameters of a half turn have length one, and are one of its two axes. -/
theorem unit_of_halfTurn (ha : a.dot a = 1) (h : toMat3 r = .halfTurn a) :
    r.dot r = 1 ∧ (r = a ∨ r = -a) := by
  have hden := one_add_dot_self_ne_zero r
  have hw : (toQuaternion r).w = 0 := by
    apply Quaternion.w_eq_zero_of_trace (isUnit_toQuaternion r)
    rw [← toMat3_eq, h, Mat3.trace_halfTurn ha]
  have hunit : r.dot r = 1 := by
    rw [toQuaternion_eq] at hw
    linarith [(div_eq_zero_iff.1 hw).resolve_right hden]
  exact ⟨hunit, Mat3.eq_or_eq_neg_of_halfTurn ha hunit (h.symm.trans (toMat3_of_unit hunit))⟩

/-- The rotation vector of parameters of a half turn has them for axis. -/
theorem toRotationVector_of_unit (hr : r.dot r = 1) (heps : eps < 1) :
    toRotationVector eps r = r.smul Real.pi := by
  rw [toRotationVector_eq, Vec3.norm_of_unit hr, if_pos heps, Real.arctan_one, div_one,
    mul_div_cancel₀ _ four_ne_zero]

end Rodrigues

/-! ## Matrices -/

/-- Every half turn has a named axis, and only one. -/
theorem Mat3.IsRotation.existsUnique_named (h : m.IsRotation) (htrace : m.trace = -1) :
    ∃! a : Vec3 ℝ, a.Named ∧ m = halfTurn a := by
  have hq := Quaternion.isUnit_ofMat3 h
  have hm := Quaternion.toMat3_ofMat3 h
  have hw := Quaternion.w_eq_zero_of_trace hq (hm.symm ▸ htrace)
  rw [Quaternion.toMat3_of_w_eq_zero hq hw] at hm
  -- the vector part of the quaternion is an axis, and it or its opposite is named
  have hexists : ∃ a : Vec3 ℝ, a.Named ∧ m = halfTurn a := by
    obtain hnamed | hnamed := Vec3.named_or_named_neg (Quaternion.dot_vec_of_w_eq_zero hq hw)
    · exact ⟨_, hnamed, hm.symm⟩
    · exact ⟨_, hnamed, hm.symm.trans (halfTurn_neg _).symm⟩
  obtain ⟨a, ha, hma⟩ := hexists
  refine ⟨a, ⟨ha, hma⟩, ?_⟩
  rintro b ⟨hb, hmb⟩
  -- another axis is the same one or the opposite, and that one is not named
  obtain rfl | rfl := eq_or_eq_neg_of_halfTurn ha.unit hb.unit (hma.symm.trans hmb)
  · rfl
  · exact absurd hb ha.not_neg

namespace RotationVector

/-- The projection to the axis of a rotation, from the symmetric part of its matrix and the cosine
of its angle. -/
noncomputable def projection (m : Mat3 ℝ) (c : ℝ) : Mat3 ℝ :=
  ((m + m.transpose).sdiv (lit 2) - Mat3.one.smul c).sdiv (lit 1 - c)

/-- The column of the largest diagonal entry, divided by the root of this entry. -/
noncomputable def leadingColumn (b : Mat3 ℝ) : Vec3 ℝ :=
  if b.yy ≤ b.xx ∧ b.zz ≤ b.xx then b.col₁.sdiv (Real.sqrt b.xx)
  else if b.zz ≤ b.yy then b.col₂.sdiv (Real.sqrt b.yy) else b.col₃.sdiv (Real.sqrt b.zz)

/-- The choice among the columns, as the axis makes it: each column divided by the root of its
diagonal entry, the first of the largest. -/
theorem select_columns (b : Mat3 ℝ) :
    Vec3.select (both (atMost b.yy b.xx) (atMost b.zz b.xx)) (b.col₁.sdiv (Scalar.sqrt b.xx))
      (Vec3.select (atMost b.zz b.yy) (b.col₂.sdiv (Scalar.sqrt b.yy))
        (b.col₃.sdiv (Scalar.sqrt b.zz))) = leadingColumn b := by
  rw [Vec3.select_eq_ite, Vec3.select_eq_ite]
  refine if_congr ?_ rfl (if_congr (atMost_ne_zero _ _) rfl rfl)
  rw [both_ne_zero, atMost_ne_zero, atMost_ne_zero]

/-- The axis near a half turn, with the choice of the column and that of the sign apart. -/
theorem axis_eq (m : Mat3 ℝ) (c : ℝ) (w : Vec3 ℝ) : axis m c w =
    let a := leadingColumn (projection m c)
    if (a.sdiv a.norm).dot w < 0 then -a.sdiv a.norm else a.sdiv a.norm := by
  have hprojection : ((m + m.transpose).sdiv (lit 2) - Mat3.one.smul c).sdiv (lit 1 - c) =
      projection m c := rfl
  simp only [axis, hprojection, select_columns, Vec3.select_eq_ite (less _ _)]
  exact if_congr ((less_ne_zero _ _).trans (by rw [lit_zero])) rfl rfl

/-- What a half turn projects with is the product of the axis with itself. -/
theorem projection_halfTurn (a : Vec3 ℝ) : projection (.halfTurn a) (-1) =
    ⟨a.x * a.x, a.y * a.x, a.z * a.x, a.x * a.y, a.y * a.y, a.z * a.y,
      a.x * a.z, a.y * a.z, a.z * a.z⟩ := by
  rw [Mat3.halfTurn_eq]
  ext <;> simp only [projection, Mat3.transpose, Mat3.add_eq, Mat3.sub_eq, Mat3.sdiv, Mat3.smul,
    Mat3.map, Mat3.one_eq, lit_one, Nat.cast_ofNat] <;> ring

/-- The columns of the projection to an axis are multiples of it. -/
theorem leadingColumn_projection (h : a.Named) :
    leadingColumn (projection (.halfTurn a) (-1)) = a := by
  have hcolumn {k : ℝ} (hk : 0 < k) : (a.smul k).sdiv (Real.sqrt (k * k)) = a := by
    rw [Real.sqrt_mul_self hk.le]
    ext <;> exact mul_div_cancel_left₀ _ hk.ne'
  have hleading := h.leading
  rw [projection_halfTurn]
  -- the diagonal holds squares, so the largest entry is that of the leading component
  simp only [Vec3.leading, abs_le_iff_mul_self_le] at hleading
  unfold leadingColumn
  split_ifs at hleading ⊢ <;> exact hcolumn hleading

/-- The axis of a half turn is the named one. -/
theorem axis_halfTurn (h : a.Named) : axis (.halfTurn a) (-1) ⟨0, 0, 0⟩ = a := by
  have hzero : a.dot ⟨0, 0, 0⟩ = 0 := by simp [Vec3.dot_eq]
  simp only [axis_eq, leadingColumn_projection h, Vec3.sdiv_norm_of_unit h.unit, hzero, lt_irrefl,
    if_false]

/-- The rotation vector of the matrix of a half turn has the named axis. -/
theorem ofMat3_halfTurn (h : a.Named) : ofMat3 (.halfTurn a) = a.smul Real.pi := by
  have hangle : (Mat3.halfTurn a).HasAngle Real.pi := hasAngle_around h.unit Real.pi_pos.le le_rfl
  have hskew : (skewPart (.halfTurn a)).vee = ⟨0, 0, 0⟩ := by
    rw [vee_skewPart, Mat3.halfTurn_eq]
    ext <;> dsimp only <;> ring
  rw [ofMat3_eq hangle, Real.cos_pi, hskew, axis_halfTurn h, if_pos (by norm_num)]

end RotationVector

end Attitude
