import Attitude.Scalar.Basic

/-!
# Vectors of three components

Sums over components start from zero and go from the first component to the last. The order matters
to rounded arithmetic, and the start makes the sum of negative zeros a positive one.
-/

namespace Attitude

/-- A vector of three components. -/
structure Vec3 (α : Type) where
  x : α
  y : α
  z : α
  deriving DecidableEq, Repr

namespace Vec3

variable {α β : Type}

@[ext]
theorem ext {a b : Vec3 α} (hx : a.x = b.x) (hy : a.y = b.y) (hz : a.z = b.z) : a = b := by
  cases a; cases b; simp_all

/-- Applies a function to every component. -/
def map (f : α → β) (a : Vec3 α) : Vec3 β := ⟨f a.x, f a.y, f a.z⟩

/-- Joins two vectors component by component. -/
def zipWith (f : α → α → β) (a b : Vec3 α) : Vec3 β := ⟨f a.x b.x, f a.y b.y, f a.z b.z⟩

section Ring

variable [RingOps α]

instance : Add (Vec3 α) := ⟨zipWith (· + ·)⟩
instance : Sub (Vec3 α) := ⟨zipWith (· - ·)⟩
instance : Neg (Vec3 α) := ⟨map (- ·)⟩

/-- The vector with every component multiplied by `k` from the left. -/
def smul (k : α) (a : Vec3 α) : Vec3 α := a.map (k * ·)

/-- The vector of zeros. -/
def zero : Vec3 α := ⟨lit 0, lit 0, lit 0⟩

/-- The scalar product. -/
def dot (a b : Vec3 α) : α := lit 0 + a.x * b.x + a.y * b.y + a.z * b.z

/-- The vector product. -/
def cross (a b : Vec3 α) : Vec3 α :=
  ⟨a.y * b.z - a.z * b.y, a.z * b.x - a.x * b.z, a.x * b.y - a.y * b.x⟩

end Ring

/-- The vector with every component divided by `k`. -/
def sdiv [FieldOps α] (a : Vec3 α) (k : α) : Vec3 α := a.map (· / k)

/-- Chooses between two vectors by one condition, component by component. -/
def select [FieldOps α] (c : α) (a b : Vec3 α) : Vec3 α := zipWith (Attitude.select c) a b

/-- The length of a vector. -/
def norm [Scalar α] (a : Vec3 α) : α := Scalar.sqrt (dot a a)

end Vec3

end Attitude
