import Attitude.Proofs.Exact.Field
import Mathlib.Tactic.Ring

/-!
# Rotation matrices

Over a commutative ring the matrices of three rows and columns are a monoid. A rotation is a matrix
whose transpose undoes it and whose determinant is one. Its transpose is then its adjugate
(`IsRotation.transpose_eq`), so every entry is the minor that belongs to it; from this come the
closure under products and transposes, and the identities that other modules read off.
-/

namespace Attitude

variable {R : Type} [CommRing R]

/-! ## Vectors in coordinates -/

namespace Vec3

variable (a b : Vec3 R)

theorem add_eq : a + b = ⟨a.x + b.x, a.y + b.y, a.z + b.z⟩ := rfl
/-- The difference of vectors by its entries. -/
theorem sub_eq : a - b = ⟨a.x - b.x, a.y - b.y, a.z - b.z⟩ := rfl
/-- The negative of a vector by its entries. -/
theorem neg_eq : -a = ⟨-a.x, -a.y, -a.z⟩ := rfl

/-- The zero vector in the numbers of a commutative ring. -/
theorem zero_eq : (zero : Vec3 R) = ⟨0, 0, 0⟩ := by
  ext <;> simp [zero]

/-- The dot product without the zero that the sum starts from. -/
theorem dot_eq : a.dot b = a.x * b.x + a.y * b.y + a.z * b.z := by
  simp [dot]

end Vec3

/-! ## The monoid of matrices -/

namespace Mat3

variable (m n : Mat3 R)

theorem add_eq : m + n = ⟨m.xx + n.xx, m.xy + n.xy, m.xz + n.xz, m.yx + n.yx, m.yy + n.yy,
    m.yz + n.yz, m.zx + n.zx, m.zy + n.zy, m.zz + n.zz⟩ := rfl

/-- The difference of matrices by its entries. -/
theorem sub_eq : m - n = ⟨m.xx - n.xx, m.xy - n.xy, m.xz - n.xz, m.yx - n.yx, m.yy - n.yy,
    m.yz - n.yz, m.zx - n.zx, m.zy - n.zy, m.zz - n.zz⟩ := rfl

/-- The identity matrix in the numbers of a commutative ring. -/
theorem one_eq : (one : Mat3 R) = ⟨1, 0, 0, 0, 1, 0, 0, 0, 1⟩ := by
  ext <;> simp [one]

/-- The product of matrices by its entries, each without the zero that the sum starts from. -/
theorem mul_eq : m * n =
    ⟨m.xx * n.xx + m.xy * n.yx + m.xz * n.zx, m.xx * n.xy + m.xy * n.yy + m.xz * n.zy,
     m.xx * n.xz + m.xy * n.yz + m.xz * n.zz, m.yx * n.xx + m.yy * n.yx + m.yz * n.zx,
     m.yx * n.xy + m.yy * n.yy + m.yz * n.zy, m.yx * n.xz + m.yy * n.yz + m.yz * n.zz,
     m.zx * n.xx + m.zy * n.yx + m.zz * n.zx, m.zx * n.xy + m.zy * n.yy + m.zz * n.zy,
     m.zx * n.xz + m.zy * n.yz + m.zz * n.zz⟩ := by
  ext <;> exact Vec3.dot_eq _ _

instance : One (Mat3 R) := ⟨one⟩

/-- The identity matrix as a literal one, as which the laws below write it. -/
theorem one_def : (1 : Mat3 R) = ⟨1, 0, 0, 0, 1, 0, 0, 0, 1⟩ := one_eq

instance : Monoid (Mat3 R) where
  mul_assoc a b c := by ext <;> simp only [mul_eq] <;> ring
  one_mul a := by ext <;> simp only [mul_eq, one_def] <;> ring
  mul_one a := by ext <;> simp only [mul_eq, one_def] <;> ring

/-- Transposition turns products around. -/
theorem transpose_mul : (m * n).transpose = n.transpose * m.transpose := by
  ext <;> simp only [mul_eq, transpose] <;> ring

theorem transpose_one : (1 : Mat3 R).transpose = 1 := by
  simp only [one_def, transpose]

/-! ## Determinants -/

/-- The determinant, along the first row. -/
def determinant : R :=
  m.xx * (m.yy * m.zz - m.yz * m.zy) - m.xy * (m.yx * m.zz - m.yz * m.zx) +
    m.xz * (m.yx * m.zy - m.yy * m.zx)

/-- The transposed matrix of signed minors. -/
def adjugate : Mat3 R :=
  ⟨m.yy * m.zz - m.yz * m.zy, m.xz * m.zy - m.xy * m.zz, m.xy * m.yz - m.xz * m.yy,
   m.yz * m.zx - m.yx * m.zz, m.xx * m.zz - m.xz * m.zx, m.xz * m.yx - m.xx * m.yz,
   m.yx * m.zy - m.yy * m.zx, m.xy * m.zx - m.xx * m.zy, m.xx * m.yy - m.xy * m.yx⟩

/-- Cramer's rule, by polynomial identities of the entries. -/
theorem mul_adjugate : m * m.adjugate = smul m.determinant 1 := by
  ext <;> simp only [mul_eq, adjugate, smul, map, one_def, determinant] <;> ring

/-- The determinant is multiplicative. -/
theorem determinant_mul : (m * n).determinant = m.determinant * n.determinant := by
  simp only [determinant, mul_eq]
  ring

/-- The determinant of the transpose. -/
theorem determinant_transpose : m.transpose.determinant = m.determinant := by
  simp only [determinant, transpose]
  ring

/-- The determinant of the identity matrix. -/
theorem determinant_one : (1 : Mat3 R).determinant = 1 := by
  simp only [determinant, one_def]
  ring

/-! ## Rotations -/

/-- The matrix is a rotation: its transpose undoes it, and it keeps the orientation. -/
structure IsRotation : Prop where
  orthogonal : m.transpose * m = 1
  determinant_eq : m.determinant = 1

namespace IsRotation

variable {m n}

/-- The adjugate of a rotation is its inverse, as its determinant is one. -/
theorem mul_adjugate (h : m.IsRotation) : m * m.adjugate = 1 := by
  rw [Mat3.mul_adjugate, h.determinant_eq]
  ext <;> simp only [smul, map, one_mul]

/-- Each entry of a rotation is its own signed minor. -/
theorem transpose_eq (h : m.IsRotation) : m.transpose = m.adjugate :=
  calc
    m.transpose = m.transpose * (m * m.adjugate) := by rw [h.mul_adjugate, mul_one]
    _ = m.transpose * m * m.adjugate := (mul_assoc _ _ _).symm
    _ = m.adjugate := by rw [h.orthogonal, one_mul]

/-- A left inverse is a right inverse. For a rotation it follows from Cramer's rule: the transpose
is the adjugate. -/
theorem mul_transpose (h : m.IsRotation) : m * m.transpose = 1 := by
  rw [h.transpose_eq, h.mul_adjugate]

theorem one : (1 : Mat3 R).IsRotation where
  orthogonal := by rw [transpose_one, one_mul]
  determinant_eq := determinant_one

/-- The transpose of a rotation is a rotation. -/
theorem transpose (h : m.IsRotation) : m.transpose.IsRotation where
  orthogonal := h.mul_transpose
  determinant_eq := m.determinant_transpose.trans h.determinant_eq

/-- Products of rotations are rotations. -/
theorem mul (hm : m.IsRotation) (hn : n.IsRotation) : (m * n).IsRotation where
  orthogonal := by
    rw [transpose_mul, mul_assoc, ← mul_assoc m.transpose, hm.orthogonal, one_mul, hn.orthogonal]
  determinant_eq := by rw [determinant_mul, hm.determinant_eq, hn.determinant_eq, one_mul]

/-- The equations between the entries of a rotation: rows and columns of length one and at right
angles, and every entry the minor that belongs to it. -/
structure Entries (m : Mat3 R) : Prop where
  row₁ : m.xx * m.xx + m.xy * m.xy + m.xz * m.xz = 1
  row₂ : m.yx * m.yx + m.yy * m.yy + m.yz * m.yz = 1
  row₃ : m.zx * m.zx + m.zy * m.zy + m.zz * m.zz = 1
  row₁₂ : m.xx * m.yx + m.xy * m.yy + m.xz * m.yz = 0
  row₁₃ : m.xx * m.zx + m.xy * m.zy + m.xz * m.zz = 0
  row₂₃ : m.yx * m.zx + m.yy * m.zy + m.yz * m.zz = 0
  col₁ : m.xx * m.xx + m.yx * m.yx + m.zx * m.zx = 1
  col₂ : m.xy * m.xy + m.yy * m.yy + m.zy * m.zy = 1
  col₃ : m.xz * m.xz + m.yz * m.yz + m.zz * m.zz = 1
  col₁₂ : m.xx * m.xy + m.yx * m.yy + m.zx * m.zy = 0
  col₁₃ : m.xx * m.xz + m.yx * m.yz + m.zx * m.zz = 0
  col₂₃ : m.xy * m.xz + m.yy * m.yz + m.zy * m.zz = 0
  xx : m.xx = m.yy * m.zz - m.yz * m.zy
  xy : m.xy = m.yz * m.zx - m.yx * m.zz
  xz : m.xz = m.yx * m.zy - m.yy * m.zx
  yx : m.yx = m.xz * m.zy - m.xy * m.zz
  yy : m.yy = m.xx * m.zz - m.xz * m.zx
  yz : m.yz = m.xy * m.zx - m.xx * m.zy
  zx : m.zx = m.xy * m.yz - m.xz * m.yy
  zy : m.zy = m.xz * m.yx - m.xx * m.yz
  zz : m.zz = m.xx * m.yy - m.xy * m.yx

/-- The equations between the entries of a rotation, from the two products with the transpose and
the determinant. -/
theorem entries (h : m.IsRotation) : Entries m := by
  have hrows := h.mul_transpose
  have hcols := h.orthogonal
  have hminors := h.transpose_eq
  simp only [mul_eq, Mat3.transpose, one_def, mk.injEq] at hrows hcols
  simp only [Mat3.transpose, adjugate, mk.injEq] at hminors
  obtain ⟨r₁, r₁₂, r₁₃, -, r₂, r₂₃, -, -, r₃⟩ := hrows
  obtain ⟨c₁, c₁₂, c₁₃, -, c₂, c₂₃, -, -, c₃⟩ := hcols
  obtain ⟨xx, yx, zx, xy, yy, zy, xz, yz, zz⟩ := hminors
  exact ⟨r₁, r₂, r₃, r₁₂, r₁₃, r₂₃, c₁, c₂, c₃, c₁₂, c₁₃, c₂₃, xx, xy, xz, yx, yy, yz, zx, zy, zz⟩

end IsRotation

end Mat3

end Attitude
