import Attitude.Fault
import Attitude.Grid
import Attitude.Skew

/-!
# Checks of data

Two checks that cost a computation and can be switched on: that a matrix is a rotation, and that a
matrix is skew-symmetric. Each measures how far the matrix is from what it should be and compares
the measure with a tolerance. A measure that is no number exceeds no tolerance.

A matrix of any shape can be asked whether it is a rotation. For three rows and columns the answer
is the one of `Mat3.isRotation`; for other shapes the question may have none.
-/

namespace Attitude

variable {α : Type} [Ground α]

/-- Whether the largest of some magnitudes exceeds a tolerance. If one of them is no number, the
largest is none either and exceeds nothing. -/
def exceeds (tol : α) (xs : List α) : Bool := xs.all Ground.isNumber && xs.any (Ground.lt tol)

namespace Mat3

/-- Whether the first scalar is larger in magnitude than the second. -/
def outweighs (a b : α) : Bool := Ground.lt (FieldOps.abs b) (FieldOps.abs a)

/-- The row with the largest first entry, the two other rows, and whether two rows were exchanged to
bring it to the front. -/
def pivot (p q r : Vec3 α) : Vec3 α × Vec3 α × Vec3 α × Bool :=
  if outweighs q.x p.x then
    if outweighs r.x q.x then (r, q, p, true) else (q, p, r, true)
  else if outweighs r.x p.x then (r, q, p, true) else (p, q, r, false)

/-- The same for two rows of two entries. -/
def pivot₂ (q r : α × α) : (α × α) × (α × α) × Bool :=
  if outweighs r.1 q.1 then (r, q, true) else (q, r, false)

/-- The smallest magnitude whose reciprocal stays in the range of doubles. -/
def safeMinimum : α := lit 1 / lit (Nat.pow 2 1022)

/-- The multiple of a row with the first entry `p` that clears the first entry `a` of another row.
It is a product with the reciprocal, unless the reciprocal is out of range. -/
def multiplier (a p : α) : α :=
  if Ground.lt (FieldOps.abs p) safeMinimum then a / p else a * (lit 1 / p)

/-- The row `q` less the multiple of the row `p` that clears its first entry. -/
def clear (p q : Vec3 α) : α × α :=
  let k := multiplier q.x p.x
  (q.y - k * p.y, q.z - k * p.z)

/-- The entry that is left of the row `r` when the first one is cleared by the row `q`. -/
def clear₂ (q r : α × α) : α := r.2 - multiplier r.1 q.1 * q.2

/-- The first entries of the rows that elimination uses one after the other, and whether the number
of exchanges was odd. The row with the largest first entry is brought to the front before each step.
-/
def pivots (m : Mat3 α) : List α × Bool :=
  let (p, q, r, exchanged) := pivot m.row₁ m.row₂ m.row₃
  let (s, t, exchanged₂) := pivot₂ (clear p q) (clear p r)
  ([p.x, s.1, clear₂ s t], exchanged ^^ exchanged₂)

/-- The product of pivots, with another sign if the number of exchanges was odd. It is zero if one
of them is; otherwise the magnitudes are multiplied by adding their logarithms. -/
def signedProduct (us : List α) (exchanged : Bool) : α :=
  if us.any (Ground.same · (lit 0)) then lit 0
  else
    let negative := us.foldl (fun b u => b ^^ Ground.lt u (lit 0)) exchanged
    let sum := us.foldl (fun s u => s + Scalar.log (FieldOps.abs u)) (lit 0)
    (if negative then -lit 1 else lit 1) * Ground.exp sum

/-- The determinant, by elimination. -/
def det (m : Mat3 α) : α :=
  let (us, exchanged) := m.pivots
  signedProduct us exchanged

/-- The magnitudes by which the product of the transpose with the matrix misses the identity. -/
def orthogonalDefects (m : Mat3 α) : List α :=
  ((m.transpose * m - one).map FieldOps.abs).toList

/-- Whether a matrix is a rotation up to a tolerance. -/
def isRotation (tol : α) (m : Mat3 α) : Bool :=
  !exceeds tol m.orthogonalDefects && !Ground.lt tol (FieldOps.abs (m.det - lit 1))

/-- Whether a matrix is skew-symmetric up to a tolerance. -/
def isSkew (tol : α) (m : Mat3 α) : Bool :=
  !exceeds tol (m.skewDefect.map FieldOps.abs).toList

end Mat3

namespace Grid

/-- The entries by which the product of the transpose with the matrix misses the identity of three
rows and columns. A product of one entry is compared with every entry of the identity. -/
def orthogonalDefects (m : Grid α) : Except Fault (List α) :=
  match zipWith? (· - ·) (m.transpose.mul m rfl) Mat3.one.toGrid with
  | some d => .ok (d.map FieldOps.abs).toList
  | none => .error .unfitDimensions

/-- The determinant of a square matrix of one or three rows. -/
def det (m : Grid α) : Except Fault α :=
  match m.toMat3?, m.toSingle? with
  | some m, _ => .ok m.det
  | none, some x => .ok (Mat3.signedProduct [x] false)
  | none, none => .error .notSquare

/-- Whether a matrix of any shape is a rotation up to a tolerance. The determinant is taken only if
the product of the transpose with the matrix is close to the identity. -/
def isRotation (tol : α) (m : Grid α) : Except Fault Bool := do
  if exceeds tol (← m.orthogonalDefects) then return false
  return !Ground.lt tol (FieldOps.abs ((← m.det) - lit 1))

/-- The check of a grid of nine entries is the check of the matrix. -/
theorem isRotation_toGrid (tol : α) (m : Mat3 α) :
    m.toGrid.isRotation tol = .ok (m.isRotation tol) := by
  have h : m.toGrid.orthogonalDefects = .ok m.orthogonalDefects := rfl
  have d : m.toGrid.det = .ok m.det := rfl
  simp only [isRotation, h, d, Mat3.isRotation, bind, Except.bind]
  cases exceeds tol m.orthogonalDefects <;> rfl

end Grid

end Attitude
