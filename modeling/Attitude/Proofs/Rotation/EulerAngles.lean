import Attitude.EulerAngles
import Attitude.Proofs.Rotation.Axis

/-!
# Euler angles and their matrices

The matrix of Euler angles is the product of rotations around the three axes of coordinates, so it
is a rotation whatever the angles are. Where the pitch is no quarter turn, each angle is found from
two entries of the matrix. So a rotation is the matrix of its angles (`toMat3_ofMat3`), and angles
in their ranges are the angles of their matrix (`ofMat3_toMat3`).
-/

namespace Attitude

/-! ## The axes of coordinates -/

namespace Vec3

theorem dot_x : (⟨1, 0, 0⟩ : Vec3 ℝ).dot ⟨1, 0, 0⟩ = 1 := by simp [dot_eq]
theorem dot_y : (⟨0, 1, 0⟩ : Vec3 ℝ).dot ⟨0, 1, 0⟩ = 1 := by simp [dot_eq]
theorem dot_z : (⟨0, 0, 1⟩ : Vec3 ℝ).dot ⟨0, 0, 1⟩ = 1 := by simp [dot_eq]

end Vec3

namespace EulerAngles

variable (e : EulerAngles ℝ)

/-- The matrix of angles is a product of three turns: around the third axis, the second and the
first. -/
theorem toMat3_eq_mul : e.toMat3 =
    Mat3.around ⟨0, 0, 1⟩ e.yaw * Mat3.around ⟨0, 1, 0⟩ e.pitch * Mat3.around ⟨1, 0, 0⟩ e.roll := by
  ext <;> simp only [toMat3, Mat3.around, Mat3.mul_eq, cos_eq, sin_eq] <;> ring

/-- The matrix of any angles is a rotation. -/
theorem isRotation_toMat3 : e.toMat3.IsRotation := by
  rw [toMat3_eq_mul]
  have hx := Mat3.isRotation_around Vec3.dot_x e.roll
  have hy := Mat3.isRotation_around Vec3.dot_y e.pitch
  have hz := Mat3.isRotation_around Vec3.dot_z e.yaw
  exact (hz.mul hy).mul hx

/-! ## The angles of a matrix -/

/-- The tolerance of the band, without literals. -/
theorem gimbalTolerance_eq : (gimbalTolerance : ℝ) = 1 / 10 ^ 15 := by
  simp only [gimbalTolerance, lit_one, Nat.cast_ofNat]
  norm_num

theorem gimbalTolerance_pos : (0 : ℝ) < gimbalTolerance := by
  rw [gimbalTolerance_eq]
  norm_num

/-- The pitch is the same within the band and outside. -/
theorem pitch_ofMat3 {m : Mat3 ℝ} (h : |m.zx| ≤ 1) :
    (ofMat3 m).pitch = Real.arcsin (-m.zx) := by
  obtain ⟨hlow, hhigh⟩ := abs_le.1 h
  have hpitch : max (min (-m.zx) 1) (-1) = -m.zx := by
    rw [min_eq_left (by linarith), max_eq_left (by linarith)]
  simp only [ofMat3, lit_one]
  exact congrArg Real.arcsin hpitch

/-- Where the pitch is no quarter turn, each angle is found from two entries. -/
theorem ofMat3_eq {m : Mat3 ℝ} (hlock : |m.zx| ≤ 1 - gimbalTolerance) : ofMat3 m =
    ⟨Scalar.atan2 m.zy m.zz, Real.arcsin (-m.zx), Scalar.atan2 m.yx m.xx⟩ := by
  have hunlocked : ¬ 1 - gimbalTolerance < |m.zx| := hlock.not_gt
  have hpitch := pitch_ofMat3 (hlock.trans (sub_le_self 1 gimbalTolerance_pos.le))
  simp only [ofMat3, select_eq_ite, less_ne_zero, abs_eq, lit_one, if_neg hunlocked] at hpitch ⊢
  exact ext rfl hpitch rfl

/-- Where the pitch is no quarter turn, the angles of a rotation have it for their matrix. -/
theorem toMat3_ofMat3 {m : Mat3 ℝ} (h : m.IsRotation) (hlock : |m.zx| ≤ 1 - gimbalTolerance) :
    (ofMat3 m).toMat3 = m := by
  have e := h.entries
  have hlt : |m.zx| < 1 := hlock.trans_lt (sub_lt_self 1 gimbalTolerance_pos)
  obtain ⟨hlow, hhigh⟩ := abs_lt.1 hlt
  -- the last row and the first column leave the same length to the other two entries
  let r := Real.sqrt (1 - (-m.zx) ^ 2)
  have hnonneg : 0 < 1 - (-m.zx) ^ 2 := by nlinarith
  have hr : 0 < r := Real.sqrt_pos.2 hnonneg
  have hsq : r * r = 1 - m.zx * m.zx := (Real.mul_self_sqrt hnonneg.le).trans (by ring)
  obtain ⟨hcr, hsr⟩ := cos_sin_atan2 (c := m.zz) (s := m.zy) hr (by linarith [e.row₃])
  obtain ⟨hcy, hsy⟩ := cos_sin_atan2 (c := m.xx) (s := m.yx) hr (by linarith [e.col₁])
  have hsp : Real.sin (Real.arcsin (-m.zx)) = -m.zx := Real.sin_arcsin (by linarith) (by linarith)
  have hcp : Real.cos (Real.arcsin (-m.zx)) = r := Real.cos_arcsin _
  rw [ofMat3_eq hlock]
  ext <;> simp only [toMat3, cos_eq, sin_eq, hcr, hsr, hcy, hsy, hsp, hcp] <;> field_simp
  -- four entries are left, each of which is a minor
  · linear_combination -e.xy - m.zx * e.yz - m.xy * hsq
  · linear_combination -e.xz + m.zx * e.yy - m.xz * hsq
  · linear_combination -e.yy + m.zx * e.xz - m.yy * hsq
  · linear_combination -e.yz - m.zx * e.xy - m.yz * hsq

/-- Where the pitch is no quarter turn, angles in their ranges are those of their matrix. -/
theorem ofMat3_toMat3 (hroll : e.roll ∈ Set.Ioc (-Real.pi) Real.pi)
    (hpitch : e.pitch ∈ Set.Ioo (-(Real.pi / 2)) (Real.pi / 2))
    (hyaw : e.yaw ∈ Set.Ioc (-Real.pi) Real.pi)
    (hlock : |Real.sin e.pitch| ≤ 1 - gimbalTolerance) : ofMat3 e.toMat3 = e := by
  have hcos : 0 < Real.cos e.pitch := Real.cos_pos_of_mem_Ioo hpitch
  have hzx : -e.toMat3.zx = Real.sin e.pitch := neg_neg _
  have hzy : e.toMat3.zy = Real.cos e.pitch * Real.sin e.roll := mul_comm _ _
  have hzz : e.toMat3.zz = Real.cos e.pitch * Real.cos e.roll := mul_comm _ _
  rw [ofMat3_eq (by rwa [← abs_neg, hzx]), hzx, hzy, hzz]
  ext
  · exact atan2_mul_sin_cos hcos hroll
  · exact Real.arcsin_sin hpitch.1.le hpitch.2.le
  · exact atan2_mul_sin_cos hcos hyaw

end EulerAngles

end Attitude
