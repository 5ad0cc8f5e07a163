import Attitude.Element

/-!
# Drawn rotations

Four normal numbers, scaled to length one, are a uniformly distributed unit quaternion. An element
takes the rotation that was drawn in the way that loses least: a rotation matrix, a quaternion or a
rotation vector directly, anything else by way of the rotation matrix.
-/

namespace Attitude

variable {α : Type} [Ground α]

/-- The unit quaternion of a draw `(x, y, z, w)`, which must not be zero. -/
def Quaternion.ofDraw (x y z w : α) : Except Fault (Quaternion α) :=
  let n := Scalar.sqrt (lit 0 + x * x + y * y + z * z + w * w)
  if Ground.same n (lit 0) then .error .zeroDraw else .ok ⟨w / n, x / n, y / n, z / n⟩

/-- The rotation matrix of a drawn quaternion. It is the matrix of the quaternion; the squares on
the diagonal are added up in the order of the draw. -/
def Quaternion.toDrawnMatrix (q : Quaternion α) : Mat3 α :=
  let xx := sq q.x
  let yy := sq q.y
  let zz := sq q.z
  let ww := sq q.w
  { q.toMat3 with
    xx := xx - yy - zz + ww
    yy := -xx + yy - zz + ww
    zz := -xx - yy + zz + ww }

/-- Of a quaternion and its negative, which are the same rotation, the one whose first component
other than zero is positive. The scalar part comes first. -/
def Quaternion.principal (q : Quaternion α) : Quaternion α :=
  match [q.w, q.x, q.y, q.z].find? fun a => !Ground.same a (lit 0) with
  | some a => if Ground.lt a (lit 0) then -q else q
  | none => q

/-- The angle under which the factor of a drawn rotation vector comes from its series. -/
def Quaternion.drawnSeriesBound : α := lit 1 / lit 1000

/-- The rotation vector of a drawn quaternion, of angle at most a half turn. At a half turn the
first component other than zero is positive. The quotient of the angle by the sine of its half is
replaced by the first three terms of its series near zero. -/
def Quaternion.toDrawnRotationVector (q : Quaternion α) : Vec3 α :=
  let q := q.principal
  let angle := lit 2 * Scalar.atan2 q.vec.norm q.w
  let factor :=
    if Ground.lt angle drawnSeriesBound then
      lit 2 + sq angle / lit 12 + lit 7 * sq angle * sq angle / lit 2880
    else angle / Scalar.sin (angle / lit 2)
  q.vec.smul factor

/-- The data that an element of a class takes from a unit quaternion. -/
def Context.takeDraw (ctx : Context α) (c : ConcreteClass) (q : Quaternion α) :
    Except Fault (Held α) :=
  match c.family with
  | .matrix => .ok (.fresh (.numeric q.toDrawnMatrix.toGrid))
  | .quaternion => .ok (.fresh (.numeric q.toGrid))
  | .rotationVector => .ok (.fresh (.numeric q.toDrawnRotationVector.toGrid))
  | .euler | .rodrigues => ctx.takeMatrix c (.fresh (.numeric q.toDrawnMatrix.toGrid))

end Attitude
