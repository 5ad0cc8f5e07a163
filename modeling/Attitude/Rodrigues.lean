import Attitude.Quaternion
import Attitude.Skew

/-!
# Modified Rodrigues parameters

The parameters of a rotation are the vector part of its unit quaternion divided by one plus the
scalar part: the axis times the tangent of a quarter of the angle. The other quaternion of the same
rotation has other parameters, the shadow set. One of the two sets lies in the unit ball, and
results are taken from there.
-/

namespace Attitude.Rodrigues

variable {α : Type}

section Field

variable [FieldOps α]

/-- The parameters of the negative quaternion. Parameters of squared length at most `eps` stay. -/
def shadow (eps : α) (r : Vec3 α) : Vec3 α :=
  let n := r.dot r
  Vec3.select (less eps n) ((-r).sdiv n) r

/-- Of the two sets of a rotation the one in the unit ball. -/
def shadowIfOutside (eps : α) (r : Vec3 α) : Vec3 α :=
  Vec3.select (less (lit 1) (r.dot r)) (shadow eps r) r

/-- The unit quaternion of the parameters. -/
def toQuaternion (r : Vec3 α) : Quaternion α :=
  let n := r.dot r
  let den := lit 1 + n
  Quaternion.ofParts ((lit 1 - n) / den) ((r.smul (lit 2)).sdiv den)

/-- The parameters of a unit quaternion, in the unit ball. -/
def ofQuaternion (q : Quaternion α) : Vec3 α :=
  let q := q.upper
  q.vec.sdiv (lit 1 + q.w)

/-- The parameters of the composition of two rotations. The closed form has a denominator that
vanishes where the composition is a full turn; where it is no larger than `eps` the product of the
quaternions is used. -/
def mul (eps : α) (a b : Vec3 α) : Vec3 α :=
  let na := a.dot a
  let nb := b.dot b
  let den := lit 1 + na * nb - lit 2 * b.dot a
  let closed :=
    (b.smul (lit 1 - na) + a.smul (lit 1 - nb) - (b.cross a).smul (lit 2)).sdiv den
  let throughQuaternions := ofQuaternion (toQuaternion a * toQuaternion b)
  let r := Vec3.select (less eps (FieldOps.abs den)) closed throughQuaternions
  shadowIfOutside eps r

/-- The rotation matrix of the parameters. -/
def toMat3 (r : Vec3 α) : Mat3 α :=
  let k := r.hat
  let n := r.dot r
  Mat3.one +
    ((k * k).smul (lit 8) + k.smul (lit 4 * (lit 1 - n))).sdiv (sq (lit 1 + n))

end Field

section Scalar

variable [Scalar α]

/-- The parameters of a rotation matrix. -/
def ofMat3 (m : Mat3 α) : Vec3 α := ofQuaternion (Quaternion.ofMat3 m)

/-- The rotation vector of the parameters, with four times the arc tangent of their length as its
angle. Where the length is at most `eps` the quotient is replaced by its limit. -/
def toRotationVector (eps : α) (r : Vec3 α) : Vec3 α :=
  let n := r.norm
  r.smul (select (less eps n) (lit 4 * Scalar.atan n / n) (lit 4))

/-- The parameters of a rotation vector. -/
def ofRotationVector (v : Vec3 α) : Vec3 α := ofQuaternion (Quaternion.ofRotationVector v)

end Scalar

end Attitude.Rodrigues
