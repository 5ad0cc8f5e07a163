import Attitude.Proofs.Exact.Coefficient
import Attitude.Proofs.Rotation.Axis
import Attitude.Proofs.Rotation.Validity
import Attitude.RotationVector
import Mathlib.Tactic.Positivity

/-!
# The defect of the exponential

The matrix of a rotation vector is `1 + a K + b K²`, where `K` is the skew-symmetric matrix of the
vector and the coefficients come from its length. Whatever the coefficients are, such a matrix
misses a rotation by one number, the `defect`: the product of the transpose with the matrix is the
identity and the defect times `K²`, and the determinant is one less the defect times the squared
length.

The closed forms of the coefficients leave no defect, and the matrix is then the rotation by the
factor that the vector has along its axis (`toMat3_smul`). The series that replace them near zero
leave one: three orders cancel, and what remains is about `|v|⁶/2880`. So the matrix is a rotation
exactly for vectors that are zero or not near zero (`isRotation_toMat3_iff`), and up to 1e-27
otherwise (`near_toMat3`).
-/

namespace Attitude

/-! ## Coefficients -/

namespace Coefficient

/-- What the coefficients `a` and `b` miss of a rotation, for a vector of squared length `n`. -/
noncomputable def defect (n a b : ℝ) : ℝ := b + b - a * a - n * (b * b)

/-- What the series of both coefficients miss, for a vector of squared length `n`. -/
noncomputable def seriesDefect (n : ℝ) : ℝ :=
  -(n * n * n) * (1 / lit 2880 - n / lit 21600 + n * n / lit 518400)

/-- The defect of the series, without literals. -/
theorem seriesDefect_eq (n : ℝ) :
    seriesDefect n = -(n * n * n) * (1 / 2880 - n / 21600 + n * n / 518400) := by
  simp only [seriesDefect, Nat.cast_ofNat]

variable {n x : ℝ}

/-- The series are never exact, except at zero. -/
theorem seriesDefect_ne_zero (hn : 0 < n) (hsmall : n ≤ 1) : seriesDefect n ≠ 0 := by
  rw [seriesDefect_eq]
  have hcube : 0 < n * n * n := by positivity
  have hfactor : 0 < 1 / 2880 - n / 21600 + n * n / 518400 := by nlinarith
  exact mul_ne_zero (neg_ne_zero.2 hcube.ne') hfactor.ne'

/-- Three orders cancel, and the first one that is left bounds what is left. -/
theorem abs_seriesDefect_le (hn : 0 ≤ n) (hsmall : n ≤ 1) :
    |seriesDefect n| ≤ n * n * n / 2880 := by
  have hcube : 0 ≤ n * n * n := by positivity
  have hlow : 0 ≤ 1 / 2880 - n / 21600 + n * n / 518400 := by nlinarith
  have hhigh : 1 / 2880 - n / 21600 + n * n / 518400 ≤ 1 / 2880 := by nlinarith
  calc |seriesDefect n|
      = n * n * n * (1 / 2880 - n / 21600 + n * n / 518400) := by
        rw [seriesDefect_eq, neg_mul, abs_neg, abs_of_nonneg (mul_nonneg hcube hlow)]
    _ ≤ n * n * n * (1 / 2880) := mul_le_mul_of_nonneg_left hhigh hcube
    _ = n * n * n / 2880 := by ring

/-- A coefficient is taken at the magnitude of an angle. The products with powers of the angle know
its sign again. -/
theorem sinc_abs_mul (hx : x = 0 ∨ 1 / 1000 ≤ |x|) : sinc |x| * x = Real.sin x := by
  obtain rfl | hfar := hx
  · rw [mul_zero, Real.sin_zero]
  · have hne : x ≠ 0 := ne_zero_of_far hfar
    rw [sinc_eq, abs_abs, if_neg hfar.not_gt]
    obtain hsame | hopposite := abs_choice x
    · rw [hsame]
      field_simp
    · rw [hopposite, Real.sin_neg]
      field_simp

/-- The second coefficient times the square of the angle, closed form or zero. -/
theorem cosc_abs_mul (hx : x = 0 ∨ 1 / 1000 ≤ |x|) : cosc |x| * (x * x) = 1 - Real.cos x := by
  obtain rfl | hfar := hx
  · rw [mul_zero, mul_zero, Real.cos_zero, sub_self]
  · have hne : x * x ≠ 0 := mul_self_ne_zero.2 (ne_zero_of_far hfar)
    rw [cosc_eq, abs_abs, if_neg hfar.not_gt, Real.cos_abs, abs_mul_abs_self,
      div_mul_cancel₀ _ hne]

/-- Near zero the coefficients are the series. -/
theorem defect_of_near (hx : |x| < 1 / 1000) :
    defect (x * x) (sinc x) (cosc x) = seriesDefect (x * x) := by
  -- the powers of `x` below the sixth cancel
  rw [sinc_eq, cosc_eq, if_pos hx, if_pos hx, seriesDefect_eq, defect]
  ring

/-- Away from zero the coefficients are the closed forms, and nothing is missed: this is `sin² +
cos² = 1`. -/
theorem defect_of_far (hx : 1 / 1000 ≤ |x|) : defect (x * x) (sinc x) (cosc x) = 0 := by
  have hne : x ≠ 0 := ne_zero_of_far hx
  rw [sinc_eq, cosc_eq, if_neg hx.not_gt, if_neg hx.not_gt, defect]
  field_simp
  linear_combination -Real.sin_sq_add_cos_sq x

end Coefficient

/-! ## Matrices -/

open Coefficient

namespace RotationVector

/-- The matrix `1 + a K + b K²` of a vector with the skew-symmetric matrix `K`. -/
def combination (v : Vec3 ℝ) (a b : ℝ) : Mat3 ℝ := 1 + v.hat.smul a + (v.hat * v.hat).smul b

/-- The matrix of a vector as a combination whose coefficients come from the length. -/
theorem toMat3_eq (v : Vec3 ℝ) : toMat3 v = combination v (sinc v.norm) (cosc v.norm) := rfl

variable (v : Vec3 ℝ) (a b : ℝ)

/-- The square of a skew-symmetric matrix, by entries. -/
theorem hat_mul_hat : v.hat * v.hat =
    ⟨v.x * v.x - v.dot v, v.x * v.y, v.x * v.z, v.y * v.x, v.y * v.y - v.dot v, v.y * v.z,
      v.z * v.x, v.z * v.y, v.z * v.z - v.dot v⟩ := by
  ext <;> simp only [Mat3.mul_eq, Vec3.hat, Vec3.dot_eq, lit_zero] <;> ring

theorem combination_eq : combination v a b =
    ⟨1 + b * (v.x * v.x - v.dot v), b * (v.x * v.y) - a * v.z, b * (v.x * v.z) + a * v.y,
     b * (v.y * v.x) + a * v.z, 1 + b * (v.y * v.y - v.dot v), b * (v.y * v.z) - a * v.x,
     b * (v.z * v.x) - a * v.y, b * (v.z * v.y) + a * v.x, 1 + b * (v.z * v.z - v.dot v)⟩ := by
  rw [combination, hat_mul_hat]
  ext <;> simp only [Mat3.add_eq, Mat3.smul, Mat3.map, Mat3.one_def, Vec3.hat, lit_zero] <;> ring

/-- What the product with the transpose misses of the identity. -/
theorem transpose_mul_combination : (combination v a b).transpose * combination v a b =
    1 + (v.hat * v.hat).smul (defect (v.dot v) a b) := by
  rw [hat_mul_hat, combination_eq, Vec3.dot_eq]
  ext <;> simp only [Mat3.add_eq, Mat3.mul_eq, Mat3.transpose, Mat3.smul, Mat3.map, Mat3.one_def,
    defect] <;> ring

/-- What the determinant misses of one. -/
theorem determinant_combination :
    (combination v a b).determinant = 1 - v.dot v * defect (v.dot v) a b := by
  rw [combination_eq, Vec3.dot_eq]
  simp only [Mat3.determinant, defect]
  ring

variable {v a b}

/-- A combination without a defect is a rotation. -/
theorem isRotation_combination (h : defect (v.dot v) a b = 0) :
    (combination v a b).IsRotation where
  orthogonal := by
    rw [transpose_mul_combination, h]
    ext <;> simp only [Mat3.add_eq, Mat3.smul, Mat3.map, zero_mul, add_zero]
  determinant_eq := by rw [determinant_combination, h, mul_zero, sub_zero]

/-- No entry of the square of a skew-symmetric matrix is larger than the squared length. -/
theorem abs_le_of_mem_hat_mul_hat {d : ℝ} (hd : d ∈ (v.hat * v.hat).toList) : |d| ≤ v.dot v := by
  have hlength : v.dot v = v.x * v.x + v.y * v.y + v.z * v.z := Vec3.dot_eq v v
  have hx := mul_self_nonneg v.x
  have hy := mul_self_nonneg v.y
  have hz := mul_self_nonneg v.z
  have hdiagonal {p : ℝ} (hp : 0 ≤ p) (hle : p ≤ v.dot v) : |p - v.dot v| ≤ v.dot v :=
    abs_le.2 ⟨by linarith, by linarith⟩
  have hproduct {p q : ℝ} (hle : p * p + q * q ≤ v.dot v) : |p * q| ≤ v.dot v :=
    abs_le.2 ⟨by nlinarith [mul_self_nonneg (p + q)], by nlinarith [mul_self_nonneg (p - q)]⟩
  rw [hat_mul_hat] at hd
  simp only [Mat3.toList, List.mem_cons, List.not_mem_nil, or_false] at hd
  -- the diagonal misses one square, and the rest are products of two entries
  obtain rfl | rfl | rfl | rfl | rfl | rfl | rfl | rfl | rfl := hd
  · exact hdiagonal hx (by linarith)
  · exact hproduct (by linarith)
  · exact hproduct (by linarith)
  · exact hproduct (by linarith)
  · exact hdiagonal hy (by linarith)
  · exact hproduct (by linarith)
  · exact hproduct (by linarith)
  · exact hproduct (by linarith)
  · exact hdiagonal hz (by linarith)

/-- A combination with a small defect is nearly a rotation: no entry of `K²` is larger than the
squared length. -/
theorem near_combination {tol : ℝ} (h : v.dot v * |defect (v.dot v) a b| ≤ tol) :
    (combination v a b).NearRotation tol where
  orthogonal d hd := by
    have hdefect : (combination v a b).transpose * combination v a b - 1 =
        (v.hat * v.hat).smul (defect (v.dot v) a b) := by
      rw [transpose_mul_combination]
      ext <;> exact add_sub_cancel_left _ _
    rw [hdefect] at hd
    obtain ⟨e, he, rfl⟩ : ∃ e ∈ (v.hat * v.hat).toList, defect (v.dot v) a b * e = d :=
      List.mem_map.1 hd
    calc |defect (v.dot v) a b * e|
        = |e| * |defect (v.dot v) a b| := by rw [abs_mul, mul_comm]
      _ ≤ v.dot v * |defect (v.dot v) a b| :=
        mul_le_mul_of_nonneg_right (abs_le_of_mem_hat_mul_hat he) (abs_nonneg _)
      _ ≤ tol := h
  determinant := by
    -- the determinant misses the defect times the squared length, which is the bound itself
    rw [determinant_combination, sub_sub_cancel_left, abs_neg, abs_mul,
      abs_of_nonneg (Rodrigues.dot_self_nonneg v)]
    exact h

/-! ## The exponential -/

/-- The matrix of a multiple of the axis is the rotation by the factor, which may be negative,
unless it is near zero. -/
theorem toMat3_smul {u : Vec3 ℝ} (hu : u.dot u = 1) {t : ℝ} (ht : t = 0 ∨ 1 / 1000 ≤ |t|) :
    toMat3 (u.smul t) = .around u t := by
  have hsin := sinc_abs_mul ht
  have hcos := cosc_abs_mul ht
  rw [toMat3_eq, Vec3.norm_smul, Vec3.norm_of_unit hu, mul_one, combination_eq, Vec3.dot_smul_self,
    hu]
  -- each entry is linear in the two products with powers of the angle
  ext <;> simp only [Vec3.smul_eq, Mat3.around]
  · linear_combination (u.x * u.x - 1) * hcos
  · linear_combination u.x * u.y * hcos - u.z * hsin
  · linear_combination u.x * u.z * hcos + u.y * hsin
  · linear_combination u.y * u.x * hcos + u.z * hsin
  · linear_combination (u.y * u.y - 1) * hcos
  · linear_combination u.y * u.z * hcos - u.x * hsin
  · linear_combination u.z * u.x * hcos - u.y * hsin
  · linear_combination u.z * u.y * hcos + u.x * hsin
  · linear_combination (u.z * u.z - 1) * hcos

/-- A vector that is not near zero has a rotation for its matrix. -/
theorem isRotation_of_far (hv : 1 / 1000 ≤ v.norm) : (toMat3 v).IsRotation := by
  apply isRotation_combination
  rw [← v.norm_mul_self]
  exact defect_of_far (by rwa [abs_of_nonneg v.norm_nonneg])

/-- **Rotations.** The matrix of a vector is a rotation exactly if the vector is zero or not near
zero. -/
theorem isRotation_toMat3_iff : (toMat3 v).IsRotation ↔ v.norm = 0 ∨ 1 / 1000 ≤ v.norm := by
  constructor
  · intro h
    by_contra hnear
    obtain ⟨hne, hlt⟩ := not_or.1 hnear
    have hpos : 0 < v.norm := v.norm_nonneg.lt_of_ne' hne
    have hsq : 0 < v.norm * v.norm := mul_pos hpos hpos
    have hsmall : |v.norm| < 1 / 1000 := by rw [abs_of_pos hpos]; exact not_le.1 hlt
    -- near zero the determinant already tells that this is no rotation
    have hdefect := defect_of_near hsmall
    have hdet := h.determinant_eq
    rw [toMat3_eq, determinant_combination, ← v.norm_mul_self, hdefect] at hdet
    exact mul_ne_zero hsq.ne' (seriesDefect_ne_zero hsq (by nlinarith)) (by linarith)
  · rintro (hzero | hfar)
    · apply isRotation_combination
      rw [← v.norm_mul_self, defect_of_near (by rw [hzero]; norm_num), hzero, seriesDefect_eq]
      norm_num
    · exact isRotation_of_far hfar

/-- **Defects.** The matrix of a vector is a rotation up to 1e-27. -/
theorem near_toMat3 (v : Vec3 ℝ) : (toMat3 v).NearRotation (1 / 10 ^ 27) := by
  obtain hnear | hfar := lt_or_ge v.norm (1 / 1000)
  · apply near_combination
    have habs : |v.norm| < 1 / 1000 := by rwa [abs_of_nonneg v.norm_nonneg]
    rw [← v.norm_mul_self, defect_of_near habs]
    generalize hlength : v.norm * v.norm = n
    have hn : 0 ≤ n := hlength ▸ mul_self_nonneg _
    have hsmall : n ≤ 1 / 10 ^ 6 := by nlinarith [v.norm_nonneg]
    calc n * |seriesDefect n|
        ≤ n * (n * n * n / 2880) :=
          mul_le_mul_of_nonneg_left (abs_seriesDefect_le hn (hsmall.trans (by norm_num))) hn
      _ = n ^ 4 / 2880 := by ring
      _ ≤ (1 / 10 ^ 6) ^ 4 / 2880 := by gcongr
      _ ≤ 1 / 10 ^ 27 := by norm_num
  · exact (isRotation_of_far hfar).near (by positivity)

end RotationVector

end Attitude
