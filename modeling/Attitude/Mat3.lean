import Attitude.Vec3

/-!
# Matrices of three rows and three columns

The entry in the row of `a` and the column of `b` is called `ab`: `m.xz` stands in the first row and
the third column.
-/

namespace Attitude

/-- A matrix of three rows and three columns. -/
structure Mat3 (α : Type) where
  xx : α
  xy : α
  xz : α
  yx : α
  yy : α
  yz : α
  zx : α
  zy : α
  zz : α
  deriving DecidableEq, Repr

namespace Mat3

variable {α β : Type}

@[ext]
theorem ext {a b : Mat3 α} (hxx : a.xx = b.xx) (hxy : a.xy = b.xy) (hxz : a.xz = b.xz)
    (hyx : a.yx = b.yx) (hyy : a.yy = b.yy) (hyz : a.yz = b.yz)
    (hzx : a.zx = b.zx) (hzy : a.zy = b.zy) (hzz : a.zz = b.zz) : a = b := by
  cases a; cases b; simp_all

/-- Applies a function to every entry. -/
def map (f : α → β) (m : Mat3 α) : Mat3 β :=
  ⟨f m.xx, f m.xy, f m.xz, f m.yx, f m.yy, f m.yz, f m.zx, f m.zy, f m.zz⟩

/-- Joins two matrices entry by entry. -/
def zipWith (f : α → α → β) (a b : Mat3 α) : Mat3 β :=
  ⟨f a.xx b.xx, f a.xy b.xy, f a.xz b.xz,
   f a.yx b.yx, f a.yy b.yy, f a.yz b.yz,
   f a.zx b.zx, f a.zy b.zy, f a.zz b.zz⟩

/-- The entries row by row. -/
def toList (m : Mat3 α) : List α :=
  [m.xx, m.xy, m.xz, m.yx, m.yy, m.yz, m.zx, m.zy, m.zz]

/-- Rows and columns exchanged. -/
def transpose (m : Mat3 α) : Mat3 α :=
  ⟨m.xx, m.yx, m.zx, m.xy, m.yy, m.zy, m.xz, m.yz, m.zz⟩

/-- The first row. -/
def row₁ (m : Mat3 α) : Vec3 α := ⟨m.xx, m.xy, m.xz⟩
/-- The second row. -/
def row₂ (m : Mat3 α) : Vec3 α := ⟨m.yx, m.yy, m.yz⟩
/-- The third row. -/
def row₃ (m : Mat3 α) : Vec3 α := ⟨m.zx, m.zy, m.zz⟩

/-- The first column. -/
def col₁ (m : Mat3 α) : Vec3 α := ⟨m.xx, m.yx, m.zx⟩
/-- The second column. -/
def col₂ (m : Mat3 α) : Vec3 α := ⟨m.xy, m.yy, m.zy⟩
/-- The third column. -/
def col₃ (m : Mat3 α) : Vec3 α := ⟨m.xz, m.yz, m.zz⟩

section Ring

variable [RingOps α]

instance : Add (Mat3 α) := ⟨zipWith (· + ·)⟩
instance : Sub (Mat3 α) := ⟨zipWith (· - ·)⟩

/-- The matrix with every entry multiplied by `k` from the left. -/
def smul (k : α) (m : Mat3 α) : Mat3 α := m.map (k * ·)

/-- The identity matrix. -/
def one : Mat3 α := ⟨lit 1, lit 0, lit 0, lit 0, lit 1, lit 0, lit 0, lit 0, lit 1⟩

/-- The matrix product: every entry is the scalar product of a row and a column. -/
def mul (a b : Mat3 α) : Mat3 α where
  xx := a.row₁.dot b.col₁
  xy := a.row₁.dot b.col₂
  xz := a.row₁.dot b.col₃
  yx := a.row₂.dot b.col₁
  yy := a.row₂.dot b.col₂
  yz := a.row₂.dot b.col₃
  zx := a.row₃.dot b.col₁
  zy := a.row₃.dot b.col₂
  zz := a.row₃.dot b.col₃

instance : Mul (Mat3 α) := ⟨mul⟩

/-- A matrix applied to a vector. -/
def mulVec (m : Mat3 α) (v : Vec3 α) : Vec3 α := ⟨m.row₁.dot v, m.row₂.dot v, m.row₃.dot v⟩

/-- The sum of the diagonal entries. -/
def trace (m : Mat3 α) : α := lit 0 + m.xx + m.yy + m.zz

end Ring

/-- The matrix with every entry divided by `k`. -/
def sdiv [FieldOps α] (m : Mat3 α) (k : α) : Mat3 α := m.map (· / k)

end Mat3

end Attitude
