import Attitude.Proofs.Rotation.Quaternion
import Mathlib.Algebra.Quaternion

/-!
# Hamilton's quaternions

Over a commutative ring the quaternions of this library are Hamilton's algebra with basis `1`, `i`,
`j`, `k`, component by component (`hamilton`). The product is the one of that algebra and the
conjugate is its star, so the laws of the algebra hold of all quaternions, unit or not: the product
is associative, and the conjugate takes it to the product in the other order.

Lengths and matrices are not part of the algebra. They follow the product (`normSq_mul`,
`toMat3_mul`), and `laws_of_product` collects what holds of all quaternions.
-/

namespace Attitude.Quaternion

variable {R : Type} [CommRing R] (p q r : Quaternion R)

/-- The quaternion as an element of Hamilton's algebra. -/
def hamilton : QuaternionAlgebra R (-1) 0 (-1) := ⟨q.w, q.x, q.y, q.z⟩

/-- A quaternion is determined by the one of Mathlib that has its parts. -/
theorem hamilton_injective : Function.Injective (hamilton : Quaternion R → _) := by
  intro p q h
  simp only [hamilton, QuaternionAlgebra.mk.injEq] at h
  obtain ⟨hw, hx, hy, hz⟩ := h
  exact ext hw hx hy hz

/-- The formula of the product computes the product of Mathlib's quaternions. -/
theorem hamilton_mul : (p * q).hamilton = p.hamilton * q.hamilton := by
  rw [mul_eq, hamilton, hamilton, hamilton, QuaternionAlgebra.mk_mul_mk]
  ext <;> dsimp only <;> ring

/-- The formula of the conjugate computes the star of Mathlib's quaternions. -/
theorem hamilton_conj : q.conj.hamilton = star q.hamilton := by
  rw [conj_eq, hamilton, hamilton, QuaternionAlgebra.star_mk, zero_mul, add_zero]

protected theorem mul_assoc : p * q * r = p * (q * r) := by
  apply hamilton_injective
  simp only [hamilton_mul, mul_assoc]

theorem conj_mul : (p * q).conj = q.conj * p.conj := by
  apply hamilton_injective
  rw [hamilton_conj, hamilton_mul, hamilton_mul, hamilton_conj, hamilton_conj, star_mul]

theorem conj_conj : q.conj.conj = q := by
  apply hamilton_injective
  rw [hamilton_conj, hamilton_conj, star_star]

variable (R) in
/-- **Products.** Quaternions of any length multiply as their matrices do, and the conjugate is the
transpose; the product is associative, the conjugate takes it to the product in the other order, and
squared lengths multiply. -/
theorem laws_of_product :
    (∀ a b : Quaternion R, (a * b).toMat3 = a.toMat3 * b.toMat3) ∧
    (∀ a b c : Quaternion R, a * b * c = a * (b * c)) ∧
    (∀ a b : Quaternion R, (a * b).conj = b.conj * a.conj) ∧
    Function.Involutive (conj : Quaternion R → Quaternion R) ∧
    (∀ a b : Quaternion R, (a * b).normSq = a.normSq * b.normSq) ∧
    ∀ a : Quaternion R, a.conj.toMat3 = a.toMat3.transpose :=
  ⟨toMat3_mul, Quaternion.mul_assoc, conj_mul, conj_conj, normSq_mul, toMat3_conj⟩

end Attitude.Quaternion
