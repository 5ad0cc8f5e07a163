import Attitude.Proofs.Rotation.EulerAngles

/-!
# Gimbal lock

Where the pitch counts as a quarter turn, up or down, the angles of a matrix have no roll, and the
yaw is the direction of the second column. `Locked` says what their matrix is then: the pitch is
kept, and the second column is put into the horizontal plane.

So a rotation in the lock is the matrix of its angles exactly if it has no roll
(`Locked.toMat3_eq_iff`), as a rotation with a pitch of a full quarter turn does. With any other
roll the matrix of the angles is near, because the cosine of the pitch, which is the length of what
the roll turns, is small (`Locked.normSq_le`).
-/

namespace Attitude

/-- The sum of the squares of the entries: the square of the Frobenius norm. -/
def Mat3.normSq (m : Mat3 ℝ) : ℝ := m.col₁.dot m.col₁ + m.col₂.dot m.col₂ + m.col₃.dot m.col₃

namespace EulerAngles

variable {m : Mat3 ℝ} {c r cy sy : ℝ}

/-! ## The matrix of the angles in the lock -/

/-- The angles within the band: the roll is taken to be zero, and the yaw has to stand in for it. -/
theorem ofMat3_eq_of_lock (h : |m.zx| ≤ 1) (hlock : 1 - gimbalTolerance < |m.zx|) : ofMat3 m =
    ⟨0, Real.arcsin (-m.zx), Scalar.atan2 (-m.xy) m.yy⟩ := by
  have hpitch := pitch_ofMat3 h
  simp only [ofMat3, select_eq_ite, less_ne_zero, abs_eq, lit_one, lit_zero, if_pos hlock]
    at hpitch ⊢
  exact ext rfl hpitch rfl

/-- The matrix that the angles of `m` have in the lock, by the cosine `c` of the pitch and the
direction of the second column, which is `r` long without its last entry. -/
structure Locked (m : Mat3 ℝ) (c r cy sy : ℝ) : Prop where
  cos_nonneg : 0 ≤ c
  cos_sq : c * c = 1 - m.zx * m.zx
  length_pos : 0 < r
  length_sq : r * r = 1 - m.zy * m.zy
  direction : cy * cy + sy * sy = 1
  xy : m.xy = -(r * sy)
  yy : m.yy = r * cy
  toMat3_eq : (ofMat3 m).toMat3 = ⟨c * cy, -sy, -m.zx * cy, c * sy, cy, -m.zx * sy, m.zx, 0, c⟩

/-- No entry of a rotation exceeds one in magnitude. -/
theorem abs_zx_le_one (h : m.IsRotation) : |m.zx| ≤ 1 := by
  rw [abs_le_one_iff_mul_self_le_one]
  linarith [h.entries.row₃, mul_self_nonneg m.zy, mul_self_nonneg m.zz]

/-- In the lock, the last row leaves less than one to its other entries. -/
theorem one_sub_zy_pos (h : m.IsRotation) (hlock : 1 - gimbalTolerance < |m.zx|) :
    0 < 1 - m.zy * m.zy := by
  have htol : (gimbalTolerance : ℝ) < 1 := by
    rw [gimbalTolerance_eq]
    norm_num
  have hzx : 0 < m.zx * m.zx := by
    rw [← abs_mul_abs_self]
    exact mul_self_pos.2 (by linarith)
  linarith [h.entries.row₃, mul_self_nonneg m.zz]

/-- Within the band the angles of a rotation have a cosine of the pitch, and a direction of the
second column, as `Locked` collects them. -/
theorem exists_locked (h : m.IsRotation) (hlock : 1 - gimbalTolerance < |m.zx|) :
    ∃ c r cy sy, Locked m c r cy sy := by
  have hle := abs_zx_le_one h
  obtain ⟨hlow, hhigh⟩ := abs_le.1 hle
  let pitch := Real.arcsin (-m.zx)
  let yaw := Scalar.atan2 (-m.xy) m.yy
  let r := Real.sqrt (1 - m.zy * m.zy)
  have hr : 0 < r := Real.sqrt_pos.2 (one_sub_zy_pos h hlock)
  have hrsq : r * r = 1 - m.zy * m.zy := Real.mul_self_sqrt (one_sub_zy_pos h hlock).le
  -- the yaw is the direction of the second column, of which the last row has left `r`
  obtain ⟨hcy, hsy⟩ := cos_sin_atan2 (c := m.yy) (s := -m.xy) hr (by linarith [h.entries.col₂])
  have hsp : Real.sin pitch = -m.zx := Real.sin_arcsin (by linarith) (by linarith)
  have hpitch := Real.cos_sq_add_sin_sq pitch
  have hyaw := Real.cos_sq_add_sin_sq yaw
  rw [hsp] at hpitch
  refine ⟨Real.cos pitch, r, Real.cos yaw, Real.sin yaw, ?_⟩
  constructor
  · exact Real.cos_arcsin_nonneg _
  · linarith
  · exact hr
  · exact hrsq
  · linarith
  · rw [hsy, mul_div_cancel₀ _ hr.ne', neg_neg]
  · rw [hcy, mul_div_cancel₀ _ hr.ne']
  · rw [ofMat3_eq_of_lock hle hlock]
    ext <;>
      simp only [toMat3, cos_eq, sin_eq, hsp, Real.cos_zero, Real.sin_zero, pitch, yaw] <;> ring

namespace Locked

/-- In the lock, the angles of a rotation have it for their matrix if it has no roll, and only
then. -/
theorem toMat3_eq_iff (hl : Locked m c r cy sy) (h : m.IsRotation) :
    (ofMat3 m).toMat3 = m ↔ m.zy = 0 ∧ 0 ≤ m.zz := by
  have e := h.entries
  rw [hl.toMat3_eq]
  constructor
  · intro heq
    have hzy : 0 = m.zy := congrArg Mat3.zy heq
    have hzz : c = m.zz := congrArg Mat3.zz heq
    exact ⟨hzy.symm, hzz ▸ hl.cos_nonneg⟩
  · rintro ⟨hzy, hzz⟩
    have hr : r = 1 := by
      apply (mul_self_eq_one_iff.1 ?_).resolve_right (by linarith [hl.length_pos])
      rw [hl.length_sq, hzy]
      norm_num
    have hc : c = m.zz := by
      apply (mul_self_inj hl.cos_nonneg hzz).1
      have hrow := e.row₃
      rw [hzy] at hrow
      linarith [hl.cos_sq]
    obtain rfl : sy = -m.xy := by rw [hl.xy, hr, one_mul, neg_neg]
    obtain rfl : cy = m.yy := by rw [hl.yy, hr, one_mul]
    -- each entry is its minor, of which one product vanishes with the roll
    rw [hc]
    ext <;> simp only [neg_neg]
    · rw [e.xx, hzy]; ring
    · rw [e.xz, hzy]; ring
    · rw [e.yx, hzy]; ring
    · rw [e.yz, hzy]; ring
    · exact hzy.symm

/-! ## The distance to the rotation -/

/-- What the roll turns is no longer than the cosine of the pitch. -/
theorem zy_sq_le (hl : Locked m c r cy sy) (h : m.IsRotation) : m.zy * m.zy ≤ c * c := by
  linarith [h.entries.row₃, hl.cos_sq, mul_self_nonneg m.zz]

/-- The second column is nearly horizontal. -/
theorem one_sub_length_sq_le (hl : Locked m c r cy sy) (h : m.IsRotation) :
    (1 - r) * (1 - r) ≤ c * c * (c * c) := by
  have hle : r ≤ 1 := by
    rw [← abs_of_pos hl.length_pos]
    apply abs_le_one_iff_mul_self_le_one.2
    linarith [hl.length_sq, mul_self_nonneg m.zy]
  have hnonneg : 0 ≤ 1 - r := sub_nonneg.2 hle
  -- a length under one is nearer to one than its square is
  have hfirst : 1 - r ≤ c * c :=
    calc 1 - r ≤ (1 - r) * (1 + r) := le_mul_of_one_le_right hnonneg (by linarith [hl.length_pos])
      _ = m.zy * m.zy := by linear_combination -hl.length_sq
      _ ≤ c * c := hl.zy_sq_le h
  exact mul_le_mul hfirst hfirst hnonneg (mul_self_nonneg c)

/-- The first column is off by no more than twice the cosine of the pitch, which is the length of
either of its horizontal parts. -/
theorem firstColumn_le (hl : Locked m c r cy sy) (h : m.IsRotation) :
    (c * cy - m.xx) * (c * cy - m.xx) + (c * sy - m.yx) * (c * sy - m.yx) ≤ 4 * (c * c) := by
  apply sub_sq_add_sub_sq_le
  · linear_combination c * c * hl.direction
  · linarith [h.entries.col₁, hl.cos_sq]

/-- The last row is off by no more than twice the cosine of the pitch. -/
theorem lastRow_le (hl : Locked m c r cy sy) (h : m.IsRotation) :
    (0 - m.zy) * (0 - m.zy) + (c - m.zz) * (c - m.zz) ≤ 4 * (c * c) := by
  apply sub_sq_add_sub_sq_le
  · ring
  · linarith [h.entries.row₃, hl.cos_sq]

/-- The second column has the right direction. It is off by what its length misses of one. -/
theorem secondColumn_eq (hl : Locked m c r cy sy) :
    (-sy - m.xy) * (-sy - m.xy) + (cy - m.yy) * (cy - m.yy) = (1 - r) * (1 - r) := by
  rw [hl.xy, hl.yy]
  linear_combination (1 - r) * (1 - r) * hl.direction

/-- The last column follows the second one, and the roll takes a part of the first one into it. -/
theorem lastColumn_le (hl : Locked m c r cy sy) (h : m.IsRotation) :
    (-m.zx * cy - m.xz) * (-m.zx * cy - m.xz) + (-m.zx * sy - m.yz) * (-m.zx * sy - m.yz) ≤
      4 * (c * c * (c * c)) := by
  have e := h.entries
  have hxz : -m.zx * cy - m.xz = -m.zx * (1 - r) * cy + -m.zy * m.yx := by
    linear_combination -e.xz + m.zx * hl.yy
  have hyz : -m.zx * sy - m.yz = -m.zx * (1 - r) * sy + m.zy * m.xx := by
    linear_combination -e.yz - m.zx * hl.xy
  have hzx : m.zx * m.zx ≤ 1 := by linarith [hl.cos_sq, mul_self_nonneg c]
  have hturn : m.zx * m.zx * ((1 - r) * (1 - r)) ≤ c * c * (c * c) :=
    (mul_le_of_le_one_left (mul_self_nonneg _) hzx).trans (hl.one_sub_length_sq_le h)
  have hroll : m.zy * m.zy * (c * c) ≤ c * c * (c * c) :=
    mul_le_mul_of_nonneg_right (hl.zy_sq_le h) (mul_self_nonneg c)
  have hcol : m.xx * m.xx + m.yx * m.yx = c * c := by linarith [e.col₁, hl.cos_sq]
  -- the square of a sum is at most twice the sum of the squares
  have hx := add_sq_le (a := -m.zx * (1 - r) * cy) (b := -m.zy * m.yx)
  have hy := add_sq_le (a := -m.zx * (1 - r) * sy) (b := m.zy * m.xx)
  rw [hxz, hyz]
  calc _ ≤ 2 * (m.zx * m.zx * ((1 - r) * (1 - r))) + 2 * (m.zy * m.zy * (c * c)) := by
        linear_combination hx + hy + 2 * (m.zx * m.zx * ((1 - r) * (1 - r))) * hl.direction +
          2 * (m.zy * m.zy) * hcol
    _ ≤ 4 * (c * c * (c * c)) := by linarith

/-- In the lock, the cosine of the pitch is small. -/
theorem cos_sq_le (hl : Locked m c r cy sy) (h : m.IsRotation)
    (hlock : 1 - gimbalTolerance < |m.zx|) : c * c ≤ 2 * gimbalTolerance := by
  have hle := abs_zx_le_one h
  have hzx := abs_nonneg m.zx
  calc c * c = (1 - |m.zx|) * (1 + |m.zx|) := by
        rw [hl.cos_sq, ← abs_mul_abs_self]
        ring
    _ ≤ gimbalTolerance * 2 := by
        apply mul_le_mul <;> linarith
    _ = 2 * gimbalTolerance := mul_comm _ _

/-- In the lock, the matrix of the angles of a rotation is near to it. -/
theorem normSq_le (hl : Locked m c r cy sy) (h : m.IsRotation)
    (hlock : 1 - gimbalTolerance < |m.zx|) :
    ((ofMat3 m).toMat3 - m).normSq ≤ 22 * gimbalTolerance := by
  have hsquare := mul_self_nonneg c
  have hcos := hl.cos_sq_le h hlock
  have hfourth : c * c * (c * c) ≤ 2 * gimbalTolerance * (2 * gimbalTolerance) :=
    mul_le_mul hcos hcos hsquare (hsquare.trans hcos)
  have hcolumns : ((ofMat3 m).toMat3 - m).normSq ≤ 8 * (c * c) + 5 * (c * c * (c * c)) := by
    simp only [hl.toMat3_eq, Mat3.normSq, Mat3.col₁, Mat3.col₂, Mat3.col₃, Mat3.sub_eq, Vec3.dot_eq,
      sub_self, mul_zero]
    linarith [hl.firstColumn_le h, hl.secondColumn_eq, hl.lastColumn_le h, hl.lastRow_le h,
      hl.one_sub_length_sq_le h]
  rw [gimbalTolerance_eq] at hcos hfourth ⊢
  linarith

end Locked

/-! ## All rotations -/

/-- The pitch is at most a quarter turn in magnitude, whatever the matrix. -/
theorem pitch_mem_Icc (m : Mat3 ℝ) :
    (ofMat3 m).pitch ∈ Set.Icc (-(Real.pi / 2)) (Real.pi / 2) :=
  Real.arcsin_mem_Icc _

theorem zero_mem_Ioc : (0 : ℝ) ∈ Set.Ioc (-Real.pi) Real.pi :=
  ⟨neg_lt_zero.2 Real.pi_pos, Real.pi_pos.le⟩

/-- The roll is a principal value, whatever the matrix. -/
theorem roll_mem_Ioc (m : Mat3 ℝ) : (ofMat3 m).roll ∈ Set.Ioc (-Real.pi) Real.pi := by
  simp only [ofMat3, select_eq_ite, lit_zero]
  split_ifs
  · exact zero_mem_Ioc
  · exact atan2_mem_Ioc m.zy m.zz

/-- The yaw is a principal value, whatever the matrix. -/
theorem yaw_mem_Ioc (m : Mat3 ℝ) : (ofMat3 m).yaw ∈ Set.Ioc (-Real.pi) Real.pi := by
  simp only [ofMat3, select_eq_ite]
  split_ifs
  · exact atan2_mem_Ioc (-m.xy) m.yy
  · exact atan2_mem_Ioc m.yx m.xx

/-- A rotation is the matrix of its angles exactly if it is outside of the lock or has no roll: the
lock sets roll to zero. -/
theorem toMat3_ofMat3_eq_iff (h : m.IsRotation) :
    (ofMat3 m).toMat3 = m ↔ |m.zx| ≤ 1 - gimbalTolerance ∨ m.zy = 0 ∧ 0 ≤ m.zz := by
  obtain hfree | hlock := le_or_gt |m.zx| (1 - gimbalTolerance)
  · exact iff_of_true (toMat3_ofMat3 h hfree) (.inl hfree)
  · obtain ⟨c, r, cy, sy, hl⟩ := exists_locked h hlock
    rw [hl.toMat3_eq_iff h, or_iff_right hlock.not_ge]

/-- A full quarter turn leaves nothing for the roll to turn. -/
theorem roll_zero_of_quarterTurn (h : m.IsRotation) (hzx : |m.zx| = 1) :
    m.zy = 0 ∧ 0 ≤ m.zz := by
  have hsquare : m.zx * m.zx = 1 := by rw [← abs_mul_abs_self, hzx, one_mul]
  have hrow := h.entries.row₃
  have hzy := mul_self_nonneg m.zy
  have hzz := mul_self_nonneg m.zz
  have hzero : m.zz = 0 := mul_self_eq_zero.1 (by linarith)
  exact ⟨mul_self_eq_zero.1 (by linarith), hzero.ge⟩

/-- For every rotation the matrix of its angles is off by at most the root of 22 tolerances. Outside
of the band it is not off at all. -/
theorem normSq_toMat3_ofMat3_le (h : m.IsRotation) :
    ((ofMat3 m).toMat3 - m).normSq ≤ 22 * gimbalTolerance := by
  obtain hfree | hlock := le_or_gt |m.zx| (1 - gimbalTolerance)
  · have hzero : (m - m).normSq = 0 := by
      simp [Mat3.normSq, Mat3.col₁, Mat3.col₂, Mat3.col₃, Mat3.sub_eq, Vec3.dot_eq]
    rw [toMat3_ofMat3 h hfree, hzero]
    linarith [gimbalTolerance_pos]
  · obtain ⟨c, r, cy, sy, hl⟩ := exists_locked h hlock
    exact hl.normSq_le h hlock

/-- **The angles of a rotation.** The pitch is within a quarter turn, and roll and yaw within a half
turn. A rotation is the matrix of its angles exactly if its pitch does not count as a quarter turn
or it has no roll, as with a pitch of a full quarter turn; any other is near to the matrix of its
angles. And angles in their ranges, with a pitch that does not count as a quarter turn, are the
angles of their matrix. -/
theorem angles_of_rotation :
    (∀ m : Mat3 ℝ, m.IsRotation →
      (ofMat3 m).pitch ∈ Set.Icc (-(Real.pi / 2)) (Real.pi / 2) ∧
      (ofMat3 m).roll ∈ Set.Ioc (-Real.pi) Real.pi ∧
      (ofMat3 m).yaw ∈ Set.Ioc (-Real.pi) Real.pi ∧
      ((ofMat3 m).toMat3 = m ↔ |m.zx| ≤ 1 - gimbalTolerance ∨ m.zy = 0 ∧ 0 ≤ m.zz) ∧
      (|m.zx| = 1 → m.zy = 0 ∧ 0 ≤ m.zz) ∧
      ((ofMat3 m).toMat3 - m).normSq ≤ 22 * gimbalTolerance) ∧
    (∀ e : EulerAngles ℝ, e.roll ∈ Set.Ioc (-Real.pi) Real.pi →
      e.pitch ∈ Set.Ioo (-(Real.pi / 2)) (Real.pi / 2) → e.yaw ∈ Set.Ioc (-Real.pi) Real.pi →
      |Real.sin e.pitch| ≤ 1 - gimbalTolerance → ofMat3 e.toMat3 = e) := by
  refine ⟨fun m h => ?_, fun e hroll hpitch hyaw => ofMat3_toMat3 e hroll hpitch hyaw⟩
  exact ⟨pitch_mem_Icc m, roll_mem_Ioc m, yaw_mem_Ioc m, toMat3_ofMat3_eq_iff h,
    roll_zero_of_quarterTurn h, normSq_toMat3_ofMat3_le h⟩

/-- A pitch of a full quarter turn after a yaw of one, and angles without a pitch, whose roll and
yaw are at the ends of their ranges. -/
theorem angles_of_quarterTurn :
    let m : Mat3 ℝ := ⟨0, -1, 0, 0, 0, 1, -1, 0, 0⟩
    let e : EulerAngles ℝ := ⟨Real.pi, 0, Real.pi⟩
    m.IsRotation ∧ (ofMat3 m).toMat3 = m ∧
      ((ofMat3 m).toMat3 - m).normSq ≤ 22 * gimbalTolerance ∧ ofMat3 e.toMat3 = e := by
  intro m e
  have hrotation : m.IsRotation := by
    constructor
    · ext <;> simp only [m, Mat3.mul_eq, Mat3.transpose, Mat3.one_def] <;> norm_num
    · norm_num [m, Mat3.determinant]
  obtain ⟨hmatrix, hangles⟩ := angles_of_rotation
  obtain ⟨-, -, -, hiff, hquarter, hnear⟩ := hmatrix m hrotation
  have hpi : Real.pi ∈ Set.Ioc (-Real.pi) Real.pi := ⟨neg_lt_self Real.pi_pos, le_rfl⟩
  have hzero : (0 : ℝ) ∈ Set.Ioo (-(Real.pi / 2)) (Real.pi / 2) := by
    constructor <;> linarith [Real.pi_pos]
  have hlevel : |Real.sin 0| ≤ 1 - gimbalTolerance := by
    rw [Real.sin_zero, abs_zero, gimbalTolerance_eq]
    norm_num
  -- the pitch is a quarter turn exactly, where the roll vanishes
  have hback := hiff.2 (.inr (hquarter (by norm_num [m])))
  exact ⟨hrotation, hback, hnear, hangles e hpi hzero hpi hlevel⟩

/-- A rotation in the lock, by a pitch of less than a quarter turn, that is the matrix of its
angles. -/
theorem recovered_in_lock :
    let s : ℝ := 1 - 1 / 2 ^ 53
    let c : ℝ := Real.sqrt (1 - s * s)
    let m : Mat3 ℝ := ⟨c, 0, s, 0, 1, 0, -s, 0, c⟩
    m.IsRotation ∧ ¬ (|m.zx| ≤ 1 - gimbalTolerance ∨ |m.zx| = 1) ∧ (ofMat3 m).toMat3 = m := by
  intro s c m
  have hs : |m.zx| = 1 - 1 / 2 ^ 53 := by
    show |-(1 - 1 / 2 ^ 53 : ℝ)| = _
    rw [abs_neg, abs_of_pos (by norm_num)]
  have hcs : c * c = 1 - s * s := Real.mul_self_sqrt (by norm_num [s])
  have hrotation : m.IsRotation := by
    constructor
    · ext <;> simp only [m, Mat3.mul_eq, Mat3.transpose, Mat3.one_def] <;> linarith
    · simp only [m, Mat3.determinant]
      linarith
  -- within the band, and still recovered: there is no roll
  refine ⟨hrotation, ?_, (toMat3_ofMat3_eq_iff hrotation).2 (.inr ⟨rfl, Real.sqrt_nonneg _⟩)⟩
  rw [hs, gimbalTolerance_eq]
  norm_num

end EulerAngles

end Attitude
