import Attitude.Mat3
import Attitude.Coefficient

/-!
# Quaternions

A rotation by the angle `t` around the unit axis `a` is the unit quaternion with scalar part `cos
(t/2)` and vector part `sin (t/2) a`. A quaternion and its negative are the same rotation. The
product is Hamilton's, so that the matrix of a product is the product of the matrices.
-/

namespace Attitude

/-- A quaternion: a scalar part and a vector part. -/
structure Quaternion (α : Type) where
  w : α
  x : α
  y : α
  z : α
  deriving DecidableEq, Repr

namespace Quaternion

variable {α β : Type}

@[ext]
theorem ext {a b : Quaternion α} (hw : a.w = b.w) (hx : a.x = b.x) (hy : a.y = b.y)
    (hz : a.z = b.z) : a = b := by
  cases a; cases b; simp_all

/-- The quaternion of a scalar part and a vector part. -/
def ofParts (w : α) (v : Vec3 α) : Quaternion α := ⟨w, v.x, v.y, v.z⟩

/-- The vector part. -/
def vec (q : Quaternion α) : Vec3 α := ⟨q.x, q.y, q.z⟩

/-- Applies a function to every component. -/
def map (f : α → β) (q : Quaternion α) : Quaternion β := ⟨f q.w, f q.x, f q.y, f q.z⟩

/-- Joins two quaternions component by component. -/
def zipWith (f : α → α → β) (p q : Quaternion α) : Quaternion β :=
  ⟨f p.w q.w, f p.x q.x, f p.y q.y, f p.z q.z⟩

section Ring

variable [RingOps α]

instance : Neg (Quaternion α) := ⟨map (- ·)⟩

/-- The quaternion of the identity rotation. -/
def one : Quaternion α := ⟨lit 1, lit 0, lit 0, lit 0⟩

/-- Hamilton's product. -/
def mul (p q : Quaternion α) : Quaternion α :=
  ofParts (p.w * q.w - p.vec.dot q.vec) (q.vec.smul p.w + p.vec.smul q.w + p.vec.cross q.vec)

instance : Mul (Quaternion α) := ⟨mul⟩

/-- The conjugate: the vector part changes sign. -/
def conj (q : Quaternion α) : Quaternion α := ofParts q.w (-q.vec)

/-- The matrix of a unit quaternion. -/
def toMat3 (q : Quaternion α) : Mat3 α :=
  let ww := q.w * q.w
  let wx := q.w * q.x
  let wy := q.w * q.y
  let wz := q.w * q.z
  let xx := q.x * q.x
  let xy := q.x * q.y
  let xz := q.x * q.z
  let yy := q.y * q.y
  let yz := q.y * q.z
  let zz := q.z * q.z
  { xx := ww + xx - yy - zz
    xy := lit 2 * (xy - wz)
    xz := lit 2 * (xz + wy)
    yx := lit 2 * (xy + wz)
    yy := ww + yy - xx - zz
    yz := lit 2 * (yz - wx)
    zx := lit 2 * (xz - wy)
    zy := lit 2 * (yz + wx)
    zz := ww + zz - xx - yy }

end Ring

/-- Chooses between two quaternions by one condition, component by component. -/
def select [FieldOps α] (c : α) (p q : Quaternion α) : Quaternion α :=
  zipWith (Attitude.select c) p q

/-- Of a quaternion and its negative the one whose scalar part is not negative. -/
def upper [FieldOps α] (q : Quaternion α) : Quaternion α := select (less q.w (lit 0)) (-q) q

section Scalar

variable [Scalar α]

/-- Twice a component of the quaternion of a rotation matrix is the root of a signed sum of the
diagonal; half of that root. -/
def halfRoot (s : α) : α := lit 1 / lit 2 * Scalar.sqrt s

/-- The quaternion of a rotation matrix. One component is found from the diagonal, and the others
are quotients by four times that component, so it is chosen to be a large one: the scalar part where
the trace is positive, and otherwise the component of the largest diagonal entry. -/
def ofMat3 (m : Mat3 α) : Quaternion α :=
  let w := halfRoot (lit 1 + m.xx + m.yy + m.zz)
  let x := halfRoot (lit 1 + m.xx - m.yy - m.zz)
  let y := halfRoot (lit 1 - m.xx + m.yy - m.zz)
  let z := halfRoot (lit 1 - m.xx - m.yy + m.zz)
  let byW : Quaternion α :=
    ⟨w, (m.zy - m.yz) / (lit 4 * w), (m.xz - m.zx) / (lit 4 * w), (m.yx - m.xy) / (lit 4 * w)⟩
  let byX : Quaternion α :=
    ⟨(m.zy - m.yz) / (lit 4 * x), x, (m.xy + m.yx) / (lit 4 * x), (m.xz + m.zx) / (lit 4 * x)⟩
  let byY : Quaternion α :=
    ⟨(m.xz - m.zx) / (lit 4 * y), (m.xy + m.yx) / (lit 4 * y), y, (m.yz + m.zy) / (lit 4 * y)⟩
  let byZ : Quaternion α :=
    ⟨(m.yx - m.xy) / (lit 4 * z), (m.xz + m.zx) / (lit 4 * z), (m.yz + m.zy) / (lit 4 * z), z⟩
  select (less (lit 0) m.trace) byW
    (select (both (less m.yy m.xx) (less m.zz m.xx)) byX
      (select (less m.zz m.yy) byY byZ))

/-- The unit quaternion of a rotation vector: the exponential map. -/
def ofRotationVector (v : Vec3 α) : Quaternion α :=
  let half := v.norm / lit 2
  ofParts (Scalar.cos half) (v.smul (lit 1 / lit 2 * Coefficient.sinc half))

/-- The rotation vector of a unit quaternion, of angle at most a half turn: the logarithm map. Where
the vector part is no longer than `eps`, the quotient of the angle by its length is replaced by its
limit. -/
def toRotationVector (eps : α) (q : Quaternion α) : Vec3 α :=
  let q := q.upper
  let n := q.vec.norm
  let angle := lit 2 * Scalar.atan2 n q.w
  q.vec.smul (Attitude.select (less eps n) (angle / n) (lit 2 / q.w))

/-- The length of a quaternion. -/
def norm (q : Quaternion α) : α :=
  Scalar.sqrt (lit 0 + q.w * q.w + q.x * q.x + q.y * q.y + q.z * q.z)

end Scalar

end Quaternion

end Attitude
