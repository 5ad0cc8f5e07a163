import Attitude.Fault
import Attitude.Grid

/-!
# Equality and closeness of data

Two matrices are equal if they have the same shape and equal entries. They are close if the length
of their difference is within a tolerance, relative to the smaller of their lengths. A quaternion is
also close to the negative of another one, because both are the same rotation.
-/

namespace Attitude

variable {α : Type} [Ground α]

/-- The smaller of two scalars, the first one unless the second is smaller. -/
def smaller (a b : α) : α := if Ground.lt b a then b else a

namespace Grid

/-- Whether two matrices have the same shape and equal entries. -/
def equal (a b : Grid α) : Bool :=
  a.shape == b.shape && (a.toList.zip b.toList).all fun p => Ground.same p.1 p.2

/-- Whether a distance is within a tolerance, relative to the smaller length of two matrices. -/
def within (tol : α) (a b : Grid α) (distance : α) : Bool :=
  Ground.le distance (tol * smaller a.norm b.norm)

/-- The length of the difference of two matrices, or of another entrywise combination. -/
def distance (f : α → α → α) (a b : Grid α) : Except Fault α :=
  match zipWith? f a b with
  | some m => .ok m.norm
  | none => .error .unfitDimensions

/-- Whether two matrices are close. -/
def isClose (tol : α) (a b : Grid α) : Except Fault Bool := do
  pure (a.within tol b (← distance (· - ·) a b))

/-- Whether two quaternions are close, the second one up to its sign. -/
def isCloseUpToSign (tol : α) (a b : Grid α) : Except Fault Bool := do
  pure (a.within tol b (smaller (← distance (· - ·) a b) (← distance (· + ·) a b)))

end Grid

end Attitude
