import Attitude.Proofs.Rotation.GimbalLock

/-!
# Distances of rotations

Two rotations are as far apart as their matrices are, or as their unit quaternions are up to sign.
For quaternions with the scalar product `c` the square of the first distance is `8 (1 - c²)` and
that of the second one `2 (1 - |c|)` (`normSq_toMat3_sub`, `distance_sq`). So the first one is
between two times and `√8` times the second one, as `|c|` goes from zero to one.
-/

namespace Attitude

/-! ## Lengths -/

theorem Mat3.normSq_nonneg (m : Mat3 ℝ) : 0 ≤ m.normSq :=
  add_nonneg (add_nonneg (Rodrigues.dot_self_nonneg _) (Rodrigues.dot_self_nonneg _))
    (Rodrigues.dot_self_nonneg _)

/-- The columns of a rotation have length one. -/
theorem Mat3.IsRotation.normSq_eq {m : Mat3 ℝ} (h : m.IsRotation) : m.normSq = 3 := by
  have e := h.entries
  simp only [Mat3.normSq, Vec3.dot_eq, col₁, col₂, col₃]
  linarith [e.col₁, e.col₂, e.col₃]

/-- The Frobenius norm. -/
noncomputable def Mat3.norm (m : Mat3 ℝ) : ℝ := Real.sqrt m.normSq

/-- All rotations have one norm. So the tolerance of a comparison of matrices does not depend on
what is compared. -/
theorem Mat3.IsRotation.norm_eq {m : Mat3 ℝ} (h : m.IsRotation) : m.norm = Real.sqrt 3 := by
  rw [Mat3.norm, h.normSq_eq]

/-- The square of the norm is the sum of the squares. -/
theorem Mat3.norm_sq (m : Mat3 ℝ) : m.norm ^ 2 = m.normSq := Real.sq_sqrt m.normSq_nonneg

/-- The norm of a matrix is not negative. -/
theorem Mat3.norm_nonneg (m : Mat3 ℝ) : 0 ≤ m.norm := Real.sqrt_nonneg _

namespace Quaternion

variable (p q : Quaternion ℝ)

theorem normSq_nonneg : 0 ≤ q.normSq := by
  have hw := mul_self_nonneg q.w
  have hx := mul_self_nonneg q.x
  have hy := mul_self_nonneg q.y
  have hz := mul_self_nonneg q.z
  simp only [normSq]
  positivity

/-- The length of a quaternion is the root of the sum of the squares. -/
theorem norm_eq : q.norm = Real.sqrt q.normSq := by
  simp only [norm, normSq, lit_zero, zero_add, sqrt_eq]

/-- The square of the length of a quaternion. -/
theorem norm_sq : q.norm ^ 2 = q.normSq := by
  rw [norm_eq, Real.sq_sqrt q.normSq_nonneg]

/-- The length of a quaternion is not negative. -/
theorem norm_nonneg : 0 ≤ q.norm := q.norm_eq ▸ Real.sqrt_nonneg _

theorem norm_of_unit {q : Quaternion ℝ} (hq : q.IsUnit) : q.norm = 1 := by
  rw [norm_eq, hq.normSq_eq, Real.sqrt_one]

/-! ## Sums and differences -/

instance : Add (Quaternion ℝ) := ⟨zipWith (· + ·)⟩
instance : Sub (Quaternion ℝ) := ⟨zipWith (· - ·)⟩

/-- The sum of quaternions by its parts. -/
theorem add_eq : p + q = ⟨p.w + q.w, p.x + q.x, p.y + q.y, p.z + q.z⟩ := rfl
/-- The difference of quaternions by its parts. -/
theorem sub_eq : p - q = ⟨p.w - q.w, p.x - q.x, p.y - q.y, p.z - q.z⟩ := rfl

/-- The scalar product. -/
def dot : ℝ := p.w * q.w + p.x * q.x + p.y * q.y + p.z * q.z

theorem normSq_add : (p + q).normSq = p.normSq + q.normSq + 2 * p.dot q := by
  simp only [normSq, dot, add_eq]
  ring

/-- The law of cosines for a difference. -/
theorem normSq_sub : (p - q).normSq = p.normSq + q.normSq - 2 * p.dot q := by
  simp only [normSq, dot, sub_eq]
  ring

/-- The matrices of two quaternions of any length are apart by their lengths and their scalar
product. -/
theorem normSq_toMat3_sub : (p.toMat3 - q.toMat3).normSq =
    3 * p.normSq ^ 2 + 3 * q.normSq ^ 2 + 2 * p.normSq * q.normSq - 8 * p.dot q ^ 2 := by
  simp only [Mat3.normSq, Vec3.dot_eq, Mat3.col₁, Mat3.col₂, Mat3.col₃, Mat3.sub_eq, toMat3_eq,
    normSq, dot]
  ring

/-! ## Quaternions up to sign -/

/-- The distance to a quaternion or to its negative, whichever is nearer. -/
noncomputable def distance : ℝ := min (p - q).norm (p + q).norm

/-- The distance up to sign is not negative. -/
theorem distance_nonneg : 0 ≤ p.distance q := le_min (norm_nonneg _) (norm_nonneg _)

variable {p q} (hp : p.IsUnit) (hq : q.IsUnit)
include hp hq

/-- The inequality of Cauchy and Schwarz for unit quaternions, from the lengths of the sum and of
the difference. -/
theorem abs_dot_le_one : |p.dot q| ≤ 1 := by
  have hadd := (p + q).normSq_nonneg
  have hsub := (p - q).normSq_nonneg
  rw [normSq_add, hp.normSq_eq, hq.normSq_eq] at hadd
  rw [normSq_sub, hp.normSq_eq, hq.normSq_eq] at hsub
  exact abs_le.2 ⟨by linarith, by linarith⟩

/-- The distance up to sign is the lesser of the two lengths, and the greater the dot product in
magnitude the less it is. -/
theorem distance_sq : p.distance q ^ 2 = 2 * (1 - |p.dot q|) := by
  have hadd : (p + q).norm ^ 2 = 2 + 2 * p.dot q := by
    rw [norm_sq, normSq_add, hp.normSq_eq, hq.normSq_eq]
    ring
  have hsub : (p - q).norm ^ 2 = 2 - 2 * p.dot q := by
    rw [norm_sq, normSq_sub, hp.normSq_eq, hq.normSq_eq]
    ring
  -- the quaternion on the side of the other one is the nearer one
  obtain hsame | hopposite := le_total 0 (p.dot q)
  · have hle : (p - q).norm ≤ (p + q).norm := by
      refine (sq_le_sq₀ (norm_nonneg _) (norm_nonneg _)).1 ?_
      linarith
    rw [distance, min_eq_left hle, hsub, abs_of_nonneg hsame]
    ring
  · have hle : (p + q).norm ≤ (p - q).norm := by
      refine (sq_le_sq₀ (norm_nonneg _) (norm_nonneg _)).1 ?_
      linarith
    rw [distance, min_eq_right hle, hadd, abs_of_nonpos hopposite]
    ring

/-- Both distances of two rotations. -/
theorem norm_toMat3_sub_sq :
    (p.toMat3 - q.toMat3).norm ^ 2 = 4 * (1 + |p.dot q|) * p.distance q ^ 2 :=
  calc (p.toMat3 - q.toMat3).norm ^ 2
      = 8 * (1 - |p.dot q| ^ 2) := by
        rw [Mat3.norm_sq, normSq_toMat3_sub, hp.normSq_eq, hq.normSq_eq, sq_abs]
        ring
    _ = 4 * (1 + |p.dot q|) * p.distance q ^ 2 := by
        rw [distance_sq hp hq]
        ring

/-- The lower bound `4 d² ≤ D²`. The distance of matrices is a quadratic in the magnitude of the dot
product, and this magnitude is not negative. -/
theorem four_mul_distance_sq_le :
    4 * p.distance q ^ 2 ≤ (p.toMat3 - q.toMat3).norm ^ 2 := by
  rw [norm_toMat3_sub_sq hp hq]
  linarith [mul_nonneg (abs_nonneg (p.dot q)) (sq_nonneg (p.distance q))]

/-- The upper bound `D² ≤ 8 d²`, as the magnitude of the dot product is at most one. -/
theorem norm_toMat3_sub_sq_le :
    (p.toMat3 - q.toMat3).norm ^ 2 ≤ 8 * p.distance q ^ 2 := by
  rw [norm_toMat3_sub_sq hp hq]
  linarith [mul_le_of_le_one_left (sq_nonneg (p.distance q)) (abs_dot_le_one hp hq)]

/-- Matrices are at least twice as far apart as their quaternions are. -/
theorem two_mul_distance_le : 2 * p.distance q ≤ (p.toMat3 - q.toMat3).norm := by
  refine (sq_le_sq₀ (mul_nonneg zero_le_two (distance_nonneg p q)) (Mat3.norm_nonneg _)).1 ?_
  linarith [four_mul_distance_sq_le hp hq]

/-- Matrices are at most `√8` times as far apart as their quaternions are. -/
theorem norm_toMat3_sub_le : (p.toMat3 - q.toMat3).norm ≤ Real.sqrt 8 * p.distance q := by
  refine (sq_le_sq₀ (Mat3.norm_nonneg _)
    (mul_nonneg (Real.sqrt_nonneg 8) (distance_nonneg p q))).1 ?_
  rw [mul_pow, Real.sq_sqrt (by norm_num)]
  exact norm_toMat3_sub_sq_le hp hq

/-! ## Tolerances

A tolerance is relative to the lengths of what is compared: `√3` for rotation matrices, one for unit
quaternions. -/

variable {tol : ℝ}

/-- Matrices that are close up to a tolerance have close quaternions. -/
theorem distance_le_of_norm_toMat3_sub_le
    (h : (p.toMat3 - q.toMat3).norm ≤ tol * Real.sqrt 3) : p.distance q ≤ tol := by
  have hroot : 0 < Real.sqrt 3 := Real.sqrt_pos.2 (by norm_num)
  have htwo : Real.sqrt 3 ≤ 2 := Real.sqrt_le_iff.2 ⟨zero_le_two, by norm_num⟩
  have htol : 0 ≤ tol := nonneg_of_mul_nonneg_left ((Mat3.norm_nonneg _).trans h) hroot
  linarith [two_mul_distance_le hp hq, mul_le_mul_of_nonneg_left htwo htol]

/-- Close quaternions have matrices that are close up to the tolerance and a factor. -/
theorem norm_toMat3_sub_le_of_distance_le (h : p.distance q ≤ tol) :
    (p.toMat3 - q.toMat3).norm ≤ Real.sqrt (8 / 3) * tol * Real.sqrt 3 := by
  have hroots : Real.sqrt (8 / 3) * Real.sqrt 3 = Real.sqrt 8 := by
    rw [← Real.sqrt_mul (by norm_num)]
    norm_num
  calc (p.toMat3 - q.toMat3).norm
      ≤ Real.sqrt 8 * p.distance q := norm_toMat3_sub_le hp hq
    _ ≤ Real.sqrt 8 * tol := mul_le_mul_of_nonneg_left h (Real.sqrt_nonneg 8)
    _ = Real.sqrt (8 / 3) * tol * Real.sqrt 3 := by rw [← hroots, mul_right_comm]

end Quaternion

end Attitude
