import Attitude.Proofs.Exact.Real
import Attitude.Proofs.Rotation.Rodrigues
import Mathlib.Tactic.Linarith

/-!
# Lengths and angles

Lengths of real vectors, and the angle of a point on the upper half of the unit circle. A rotation
vector is an axis times an angle, so its length is read off with `norm_smul`.
-/

namespace Attitude

namespace Vec3

variable (v : Vec3 ℝ) (k : ℝ)

theorem smul_eq : v.smul k = ⟨k * v.x, k * v.y, k * v.z⟩ := rfl

/-- Over a field division by a number is multiplication with its inverse. -/
theorem sdiv_eq_smul : v.sdiv k = v.smul k⁻¹ := by
  ext <;> exact div_eq_inv_mul _ _

theorem neg_smul : (-v).smul k = -v.smul k := by
  ext <;> exact mul_neg _ _

theorem dot_smul_self : (v.smul k).dot (v.smul k) = k * k * v.dot v := by
  simp only [dot_eq, smul_eq]
  ring

theorem neg_dot (w : Vec3 ℝ) : (-v).dot w = -v.dot w := by
  simp only [dot_eq, neg_eq]
  ring

/-- A vector and its negative have the same squared length. -/
theorem dot_neg_self : (-v).dot (-v) = v.dot v := by
  simp only [dot_eq, neg_eq]
  ring

variable {v} in
/-- Only the zero vector is its own negative. -/
theorem dot_self_of_neg_eq (h : -v = v) : v.dot v = 0 := by
  have hx : -v.x = v.x := congrArg Vec3.x h
  have hy : -v.y = v.y := congrArg Vec3.y h
  have hz : -v.z = v.z := congrArg Vec3.z h
  rw [dot_eq, show v.x = 0 by linarith, show v.y = 0 by linarith, show v.z = 0 by linarith]
  norm_num

/-- The length is the root of the dot product with itself. -/
theorem norm_eq : v.norm = Real.sqrt (v.dot v) := rfl

theorem norm_nonneg : 0 ≤ v.norm := Real.sqrt_nonneg _

theorem norm_mul_self : v.norm * v.norm = v.dot v :=
  Real.mul_self_sqrt (Rodrigues.dot_self_nonneg v)

theorem norm_smul : (v.smul k).norm = |k| * v.norm := by
  rw [norm_eq, dot_smul_self, Real.sqrt_mul (mul_self_nonneg k), Real.sqrt_mul_self_eq_abs]
  rfl

/-- A vector and its negative have the same length. -/
theorem norm_neg : (-v).norm = v.norm := by
  rw [norm_eq, dot_neg_self]
  rfl

variable {v}

/-- A length is determined by its square. -/
theorem norm_of_dot_self {d : ℝ} (hd : 0 ≤ d) (h : v.dot v = d * d) : v.norm = d := by
  rw [norm_eq, h, Real.sqrt_mul_self hd]

theorem norm_of_unit (h : v.dot v = 1) : v.norm = 1 :=
  norm_of_dot_self zero_le_one (h.trans (mul_one 1).symm)

/-- Normalising leaves a unit vector as it is. -/
theorem sdiv_norm_of_unit (h : v.dot v = 1) : v.sdiv v.norm = v := by
  rw [norm_of_unit h]
  ext <;> exact div_one _

variable (v)

/-- A vector divided by its length has length one, or is zero and stays so. -/
theorem norm_normalize_le : (v.sdiv v.norm).norm ≤ 1 := by
  rw [sdiv_eq_smul, norm_smul, abs_of_nonneg (inv_nonneg.2 v.norm_nonneg)]
  exact inv_mul_le_one

theorem norm_zero : (zero : Vec3 ℝ).norm = 0 := by
  apply norm_of_dot_self le_rfl
  simp [zero_eq, dot_eq]

theorem zero_smul : v.smul 0 = zero := by
  rw [zero_eq]
  ext <;> exact zero_mul _

variable {v} in
theorem eq_zero_of_norm_eq_zero (h : v.norm = 0) : v = zero := by
  have hsum : v.x * v.x + v.y * v.y + v.z * v.z = 0 := by
    rw [← dot_eq, ← v.norm_mul_self, h, zero_mul]
  have hx := mul_self_nonneg v.x
  have hy := mul_self_nonneg v.y
  have hz := mul_self_nonneg v.z
  rw [zero_eq]
  ext
  · exact mul_self_eq_zero.1 (by linarith)
  · exact mul_self_eq_zero.1 (by linarith)
  · exact mul_self_eq_zero.1 (by linarith)

/-- Every vector is its length times a unit vector. For the zero vector that is any one. -/
theorem exists_direction : ∃ a : Vec3 ℝ, a.dot a = 1 ∧ a.smul v.norm = v := by
  obtain hzero | hpos := v.norm_nonneg.eq_or_lt
  · refine ⟨⟨1, 0, 0⟩, by norm_num [dot_eq], ?_⟩
    rw [eq_zero_of_norm_eq_zero hzero.symm, norm_zero, zero_smul]
  · refine ⟨v.smul v.norm⁻¹, ?_, ?_⟩
    · rw [dot_smul_self, ← v.norm_mul_self]
      field_simp
    · ext <;> exact mul_inv_cancel_left₀ hpos.ne' _

end Vec3

/-! ## Angles -/

/-- On real numbers the angle of a point is the argument of a complex number. At the origin both are
zero. -/
theorem atan2_eq (c s : ℝ) : Scalar.atan2 s c = Complex.arg ⟨c, s⟩ := rfl

/-- On real numbers the arctangent is the one of Mathlib. -/
theorem atan_eq (x : ℝ) : Scalar.atan x = Real.arctan x := rfl

/-- The angle of a point is its principal value: above `-π` and at most `π`. -/
theorem atan2_mem_Ioc (s c : ℝ) : Scalar.atan2 s c ∈ Set.Ioc (-Real.pi) Real.pi :=
  Complex.arg_mem_Ioc _

/-- The angle of a point does not depend on its distance from the origin. -/
theorem atan2_mul_sin_cos {k t : ℝ} (hk : 0 < k) (ht : t ∈ Set.Ioc (-Real.pi) Real.pi) :
    Scalar.atan2 (k * Real.sin t) (k * Real.cos t) = t := by
  have hpoint : (⟨k * Real.cos t, k * Real.sin t⟩ : ℂ) =
      k * (Complex.cos t + Complex.sin t * Complex.I) := by
    apply Complex.ext <;> simp [← Complex.ofReal_cos, ← Complex.ofReal_sin]
  rw [atan2_eq, hpoint, Complex.arg_mul_cos_add_sin_mul_I hk ht]

/-- The angle of a point of the unit circle, if it is a principal value. -/
theorem atan2_sin_cos {t : ℝ} (ht : t ∈ Set.Ioc (-Real.pi) Real.pi) :
    Scalar.atan2 (Real.sin t) (Real.cos t) = t := by
  simpa only [one_mul] using atan2_mul_sin_cos one_pos ht

/-- A point on the upper half of the unit circle is the cosine and the sine of its angle. -/
theorem exists_angle {c s : ℝ} (h : c * c + s * s = 1) (hs : 0 ≤ s) :
    ∃ t, 0 ≤ t ∧ t ≤ Real.pi ∧ c = Real.cos t ∧ s = Real.sin t ∧ Scalar.atan2 s c = t := by
  have hlow : -1 ≤ c := by nlinarith [mul_self_nonneg s]
  have hhigh : c ≤ 1 := by nlinarith [mul_self_nonneg s]
  have hcos : Real.cos (Real.arccos c) = c := Real.cos_arccos hlow hhigh
  have hsin : Real.sin (Real.arccos c) = s := by
    rw [Real.sin_arccos, show 1 - c ^ 2 = s * s by linarith, Real.sqrt_mul_self hs]
  have hatan := atan2_sin_cos (t := Real.arccos c)
    ⟨(neg_lt_zero.2 Real.pi_pos).trans_le (Real.arccos_nonneg c), Real.arccos_le_pi c⟩
  rw [hcos, hsin] at hatan
  exact ⟨Real.arccos c, Real.arccos_nonneg c, Real.arccos_le_pi c, hcos.symm, hsin.symm, hatan⟩

/-- Two points of one distance from the origin are at most twice that distance apart. -/
theorem sub_sq_add_sub_sq_le {a b x y d : ℝ} (hab : a * a + b * b = d) (hxy : x * x + y * y = d) :
    (a - x) * (a - x) + (b - y) * (b - y) ≤ 4 * d := by
  linarith [mul_self_nonneg (a + x), mul_self_nonneg (b + y)]

/-- The angle of a point that is not the origin has the coordinates for its cosine and its sine. -/
theorem cos_sin_atan2 {c s r : ℝ} (hr : 0 < r) (h : c * c + s * s = r * r) :
    Real.cos (Scalar.atan2 s c) = c / r ∧ Real.sin (Scalar.atan2 s c) = s / r := by
  have hnorm : ‖(⟨c, s⟩ : ℂ)‖ = r := by
    rw [Complex.norm_def, Complex.normSq_mk, h, Real.sqrt_mul_self hr.le]
  have hne : (⟨c, s⟩ : ℂ) ≠ 0 := norm_ne_zero_iff.1 (hnorm.trans_ne hr.ne')
  rw [atan2_eq, Complex.cos_arg hne, Complex.sin_arg, hnorm]
  exact ⟨rfl, rfl⟩

end Attitude
