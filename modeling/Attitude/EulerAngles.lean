import Attitude.Quaternion

/-!
# Euler angles

The angles of a rotation around the third, then the second, then the first axis of the body. The
matrix is the product of the three elementary rotations. At a pitch of a quarter turn up or down
only a combination of roll and yaw is determined.
-/

namespace Attitude

/-- The angles of a body 3-2-1 rotation. -/
structure EulerAngles (α : Type) where
  roll : α
  pitch : α
  yaw : α
  deriving DecidableEq, Repr

namespace EulerAngles

variable {α : Type}

@[ext]
theorem ext {a b : EulerAngles α} (hr : a.roll = b.roll) (hp : a.pitch = b.pitch)
    (hy : a.yaw = b.yaw) : a = b := by
  cases a; cases b; simp_all

variable [Scalar α]

/-- The rotation matrix of the three angles. -/
def toMat3 (e : EulerAngles α) : Mat3 α :=
  let cr := Scalar.cos e.roll
  let sr := Scalar.sin e.roll
  let cp := Scalar.cos e.pitch
  let sp := Scalar.sin e.pitch
  let cy := Scalar.cos e.yaw
  let sy := Scalar.sin e.yaw
  { xx := cp * cy
    xy := sr * sp * cy - cr * sy
    xz := cr * sp * cy + sr * sy
    yx := cp * sy
    yy := sr * sp * sy + cr * cy
    yz := cr * sp * sy - sr * cy
    zx := -sp
    zy := sr * cp
    zz := cr * cp }

/-- How close to one the sine of the pitch counts as a quarter turn. -/
def gimbalTolerance : α := lit 1 / lit 1000000000000000

/-- The angles of a rotation matrix, with the pitch within a quarter turn. Where the pitch is a
quarter turn, roll is set to zero and yaw takes the whole rotation. -/
def ofMat3 (m : Mat3 α) : EulerAngles α :=
  let lock := less (lit 1 - gimbalTolerance) (FieldOps.abs m.zx)
  { roll := select lock (lit 0) (Scalar.atan2 m.zy m.zz)
    pitch := Scalar.asin (FieldOps.max (FieldOps.min (-m.zx) (lit 1)) (-lit 1))
    yaw := select lock (Scalar.atan2 (-m.xy) m.yy) (Scalar.atan2 m.yx m.xx) }

/-- The unit quaternion of the three angles. -/
def toQuaternion (e : EulerAngles α) : Quaternion α :=
  let cr := Scalar.cos (e.roll / lit 2)
  let cp := Scalar.cos (e.pitch / lit 2)
  let cy := Scalar.cos (e.yaw / lit 2)
  let sr := Scalar.sin (e.roll / lit 2)
  let sp := Scalar.sin (e.pitch / lit 2)
  let sy := Scalar.sin (e.yaw / lit 2)
  { w := cr * cp * cy + sr * sp * sy
    x := sr * cp * cy - cr * sp * sy
    y := cr * sp * cy + sr * cp * sy
    z := cr * cp * sy - sr * sp * cy }

end EulerAngles

end Attitude
