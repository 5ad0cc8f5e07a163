import Attitude.Mat3

/-!
# Vectors as skew-symmetric matrices

The Lie algebra of the rotations is the space of skew-symmetric matrices. `Vec3.hat` writes a vector
as such a matrix, and the product of `v.hat` with a vector is the vector product with `v`.
`Mat3.vee` reads the vector back.
-/

namespace Attitude

variable {α : Type} [RingOps α]

/-- The skew-symmetric matrix whose product with a vector is the vector product with `v`. -/
def Vec3.hat (v : Vec3 α) : Mat3 α :=
  ⟨lit 0, -v.z, v.y, v.z, lit 0, -v.x, -v.y, v.x, lit 0⟩

/-- The vector of a skew-symmetric matrix. Three entries are read and the rest is ignored. -/
def Mat3.vee (m : Mat3 α) : Vec3 α := ⟨m.zy, m.xz, m.yx⟩

/-- The sum of a matrix and its transpose, which is zero for a skew-symmetric matrix. -/
def Mat3.skewDefect (m : Mat3 α) : Mat3 α := m + m.transpose

/-- The vector of the skew-symmetric matrix of a vector. -/
theorem Vec3.vee_hat (v : Vec3 α) : v.hat.vee = v := rfl

end Attitude
