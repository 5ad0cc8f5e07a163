import Attitude.Proofs.Rotation.Matrix
import Attitude.Quaternion

/-!
# Quaternions and their matrices

Over a commutative ring the matrix of a product of quaternions is the product of their matrices, and
the matrix of the conjugate is the transpose. Both hold for all quaternions. The matrix of a unit
quaternion is a rotation, because its product with its transpose and its determinant are powers of
the squared length.
-/

namespace Attitude.Quaternion

variable {R : Type} [CommRing R] (p q : Quaternion R)

/-! ## Quaternions in coordinates -/

theorem neg_eq : -q = ⟨-q.w, -q.x, -q.y, -q.z⟩ := rfl

theorem conj_eq : q.conj = ⟨q.w, -q.x, -q.y, -q.z⟩ := rfl

/-- The identity quaternion in the numbers of a commutative ring. -/
theorem one_eq : (one : Quaternion R) = ⟨1, 0, 0, 0⟩ := by
  ext <;> simp [one]

/-- The product written out, with the cross product resolved into entries. Identities of products
are polynomial identities from here on. -/
theorem mul_eq : p * q =
    ⟨p.w * q.w - (p.x * q.x + p.y * q.y + p.z * q.z),
     p.w * q.x + q.w * p.x + (p.y * q.z - p.z * q.y),
     p.w * q.y + q.w * p.y + (p.z * q.x - p.x * q.z),
     p.w * q.z + q.w * p.z + (p.x * q.y - p.y * q.x)⟩ := by
  ext
  · exact congrArg (p.w * q.w - ·) (Vec3.dot_eq p.vec q.vec)
  · rfl
  · rfl
  · rfl

/-! ## Lengths -/

/-- The square of the length. -/
def normSq : R := q.w * q.w + q.x * q.x + q.y * q.y + q.z * q.z

/-- The quaternion has length one. -/
def IsUnit : Prop := q.normSq = 1

/-- Euler's four-square identity. -/
theorem normSq_mul : (p * q).normSq = p.normSq * q.normSq := by
  simp only [normSq, mul_eq]
  ring

/-- The sign does not matter to the length. -/
theorem normSq_neg : (-q).normSq = q.normSq := by
  simp only [normSq, neg_eq]
  ring

/-- Conjugation does not matter to the length. -/
theorem normSq_conj : q.conj.normSq = q.normSq := by
  simp only [normSq, conj_eq]
  ring

theorem isUnit_one : (one : Quaternion R).IsUnit := by
  simp only [IsUnit, normSq, one_eq]
  ring

variable {p q}

/-- The defining equation, for rewriting. -/
theorem IsUnit.normSq_eq (hq : q.IsUnit) : q.normSq = 1 := hq

/-- Unit quaternions are closed under products. -/
theorem IsUnit.mul (hp : p.IsUnit) (hq : q.IsUnit) : (p * q).IsUnit := by
  rw [IsUnit, normSq_mul, hp.normSq_eq, hq.normSq_eq, one_mul]

/-- Unit quaternions are closed under negation. -/
theorem IsUnit.neg (hq : q.IsUnit) : (-q).IsUnit := q.normSq_neg.trans hq

/-- Unit quaternions are closed under conjugation. -/
theorem IsUnit.conj (hq : q.IsUnit) : q.conj.IsUnit := q.normSq_conj.trans hq

/-! ## Matrices -/

variable (p q)

/-- The matrix of a quaternion written out, without assuming that it is a unit quaternion. -/
theorem toMat3_eq : q.toMat3 =
    ⟨q.w * q.w + q.x * q.x - q.y * q.y - q.z * q.z, 2 * (q.x * q.y - q.w * q.z),
     2 * (q.x * q.z + q.w * q.y), 2 * (q.x * q.y + q.w * q.z),
     q.w * q.w + q.y * q.y - q.x * q.x - q.z * q.z, 2 * (q.y * q.z - q.w * q.x),
     2 * (q.x * q.z - q.w * q.y), 2 * (q.y * q.z + q.w * q.x),
     q.w * q.w + q.z * q.z - q.x * q.x - q.y * q.y⟩ := by
  ext <;> simp [toMat3]

/-- The matrix of a product is the product of the matrices, for all quaternions: both sides are of
degree four in the entries, and they are equal as polynomials. -/
theorem toMat3_mul : (p * q).toMat3 = p.toMat3 * q.toMat3 := by
  ext <;> simp only [toMat3_eq, mul_eq, Mat3.mul_eq] <;> ring

theorem toMat3_conj : q.conj.toMat3 = q.toMat3.transpose := by
  ext <;> simp only [toMat3_eq, conj_eq, Mat3.transpose] <;> ring

/-- A quaternion and its negative have one matrix, as the entries are quadratic. -/
theorem toMat3_neg : (-q).toMat3 = q.toMat3 := by
  ext <;> simp only [toMat3_eq, neg_eq] <;> ring

/-- The identity quaternion has the identity matrix. -/
theorem toMat3_one : (one : Quaternion R).toMat3 = 1 := by
  ext <;> simp only [toMat3_eq, one_eq, Mat3.one_def] <;> ring

/-- Rows and columns have the square of the length as their length, so the matrix of a unit
quaternion is orthogonal. -/
theorem transpose_mul_toMat3 :
    q.toMat3.transpose * q.toMat3 = Mat3.smul (q.normSq * q.normSq) 1 := by
  ext <;> simp only [toMat3_eq, Mat3.mul_eq, Mat3.transpose, Mat3.smul, Mat3.map, Mat3.one_def,
    normSq] <;> ring

/-- The determinant is the sixth power of the length, so it is one for a unit quaternion. -/
theorem determinant_toMat3 : q.toMat3.determinant = q.normSq * q.normSq * q.normSq := by
  simp only [toMat3_eq, Mat3.determinant, normSq]
  ring

variable {q}

/-- The matrix of a unit quaternion is a rotation. -/
theorem IsUnit.isRotation (hq : q.IsUnit) : q.toMat3.IsRotation where
  orthogonal := by
    rw [transpose_mul_toMat3, hq.normSq_eq]
    ext <;> simp only [Mat3.smul, Mat3.map, one_mul]
  determinant_eq := by
    rw [determinant_toMat3, hq.normSq_eq, one_mul, one_mul]

/-! ## Of a quaternion and its negative the upper one -/

section Field

variable {K : Type} [Field K] [LinearOrder K] (q : Quaternion K)

/-- The hemisphere choice as a case distinction: a negative scalar part flips the sign. -/
theorem upper_eq_ite : q.upper = if q.w < 0 then -q else q := by
  rw [upper, select_eq_ite, lit_zero]
  exact if_congr (less_ne_zero _ _) rfl rfl

/-- The same choice, by the condition that keeps the quaternion. -/
theorem upper_eq_ite_nonneg : q.upper = if 0 ≤ q.w then q else -q := by
  rw [upper_eq_ite]
  by_cases h : q.w < 0
  · rw [if_pos h, if_neg h.not_ge]
  · rw [if_neg h, if_pos (not_lt.1 h)]

/-- The upper quaternion is one of the two that have the same matrix. -/
theorem upper_cases : q.upper = q ∨ q.upper = -q := by
  rw [upper_eq_ite]
  by_cases h : q.w < 0
  · exact .inr (if_pos h)
  · exact .inl (if_neg h)

/-- A quaternion and its negative have the same upper one, unless there is no scalar part to tell
them apart. -/
theorem upper_neg [IsStrictOrderedRing K] (h : q.w ≠ 0) : (-q).upper = q.upper := by
  have hnegneg : -(-q) = q := by ext <;> exact neg_neg _
  have hw : (-q).w = -q.w := rfl
  rw [upper_eq_ite, upper_eq_ite, hw, hnegneg]
  obtain hlt | hlt := lt_or_gt_of_ne h
  · rw [if_neg (neg_pos.2 hlt).not_gt, if_pos hlt]
  · rw [if_pos (neg_neg_iff_pos.2 hlt), if_neg hlt.not_gt]

/-- The hemisphere choice does not change the matrix. -/
theorem toMat3_upper : q.upper.toMat3 = q.toMat3 := by
  obtain h | h := q.upper_cases
  · rw [h]
  · rw [h, toMat3_neg]

/-- The hemisphere choice does not change the length. -/
theorem IsUnit.upper {q : Quaternion K} (hq : q.IsUnit) : q.upper.IsUnit := by
  obtain h | h := q.upper_cases
  · rw [h]
    exact hq
  · rw [h]
    exact hq.neg

/-- The scalar part of the chosen quaternion is not negative. -/
theorem upper_w_nonneg [IsStrictOrderedRing K] : 0 ≤ q.upper.w := by
  rw [upper_eq_ite]
  by_cases h : q.w < 0
  · rw [if_pos h]
    exact neg_nonneg.2 h.le
  · rw [if_neg h]
    exact not_lt.1 h

end Field

end Attitude.Quaternion
