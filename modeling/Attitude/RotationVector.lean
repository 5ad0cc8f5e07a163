import Attitude.Skew
import Attitude.Coefficient

/-!
# Rotation vectors

A rotation vector has the axis as its direction and the angle as its length. The two maps to and
from rotation matrices are the exponential and the logarithm.
-/

namespace Attitude.RotationVector

variable {α : Type} [Scalar α]

/-- The rotation matrix of a rotation vector, by the formula of Rodrigues. -/
def toMat3 (v : Vec3 α) : Mat3 α :=
  let angle := v.norm
  let k := v.hat
  Mat3.one + k.smul (Coefficient.sinc angle) + (k * k).smul (Coefficient.cosc angle)

/-- The cosine under which the axis is read off the symmetric part of the matrix: -0.99. -/
def nearHalfTurn : α := -(lit 99 / lit 100)

/-- The cosine of the angle of a rotation matrix, kept in the range of a cosine. -/
def cosAngle (m : Mat3 α) : α :=
  FieldOps.max (FieldOps.min ((m.trace - lit 1) / lit 2) (lit 1)) (-lit 1)

/-- The unit axis of a rotation matrix, from its symmetric part. The symmetric part, cleared of its
multiple of the identity, is the product of the axis with its own transpose, and the column of the
largest diagonal entry is used. The sign is the one that agrees with the skew part `w`; at a half
turn there is none to agree with, and the largest component is positive. -/
def axis (m : Mat3 α) (c : α) (w : Vec3 α) : Vec3 α :=
  let b := ((m + m.transpose).sdiv (lit 2) - Mat3.one.smul c).sdiv (lit 1 - c)
  let a := Vec3.select (both (atMost b.yy b.xx) (atMost b.zz b.xx))
    (b.col₁.sdiv (Scalar.sqrt b.xx))
    (Vec3.select (atMost b.zz b.yy)
      (b.col₂.sdiv (Scalar.sqrt b.yy)) (b.col₃.sdiv (Scalar.sqrt b.zz)))
  let a := a.sdiv a.norm
  Vec3.select (less (a.dot w) (lit 0)) (-a) a

/-- The skew part of a matrix: what it has beyond its transpose. -/
def skewPart (m : Mat3 α) : Mat3 α := m - m.transpose

/-- The rotation vector of a rotation matrix, of angle at most a half turn. -/
def ofMat3 (m : Mat3 α) : Vec3 α :=
  let w := (skewPart m).vee
  let s := w.norm / lit 2
  let c := cosAngle m
  let angle := Scalar.atan2 s c
  Vec3.select (less c nearHalfTurn)
    ((axis m c w).smul angle) (w.smul (Coefficient.halfCosecant angle))

end Attitude.RotationVector
