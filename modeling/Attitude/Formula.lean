import Attitude.Fault
import Attitude.Grid
import Attitude.RotationVector
import Attitude.Rodrigues

/-!
# Formulas by name

The formulas of the library as data: a value of `Formula` can be named, put into a table of
conversions and applied to matrices of any shape, and fails where the shape is not the one that the
formula is for.

`Formula.apply` is one definition for every kind of scalar, so a formula applied to symbols means
the same as applied to numbers.
-/

namespace Attitude

/-- The formulas that can be named. -/
inductive Formula where
  | quaternionMul
  | quaternionConj
  | quaternionToMatrix
  | quaternionOfMatrix
  | quaternionOfRotationVector
  | quaternionToRotationVector
  | rodriguesShadow
  | rodriguesShadowIfOutside
  | rodriguesMul
  | rodriguesToMatrix
  | rodriguesToQuaternion
  | rodriguesOfQuaternion
  | rodriguesOfMatrix
  | rodriguesToRotationVector
  | rodriguesOfRotationVector
  | eulerToMatrix
  | eulerOfMatrix
  | eulerToQuaternion
  | rotationVectorToMatrix
  | rotationVectorOfMatrix
  /-- A copy of the data. -/
  | copy
  | sinc
  | cosc
  | halfCosecant
  /-- The data itself. -/
  | itself
  | hat
  | vee
  deriving DecidableEq, Repr

namespace Formula

/-- Every formula with its name. -/
def names : List (String × Formula) := [
  ("quat.product", quaternionMul),
  ("quat.conjugate", quaternionConj),
  ("quat.to_dcm", quaternionToMatrix),
  ("quat.from_dcm", quaternionOfMatrix),
  ("quat.from_rotvec", quaternionOfRotationVector),
  ("quat.to_rotvec", quaternionToRotationVector),
  ("mrp.shadow", rodriguesShadow),
  ("mrp.shadow_if_necessary", rodriguesShadowIfOutside),
  ("mrp.product", rodriguesMul),
  ("mrp.to_dcm", rodriguesToMatrix),
  ("mrp.to_quat", rodriguesToQuaternion),
  ("mrp.from_quat", rodriguesOfQuaternion),
  ("mrp.from_dcm", rodriguesOfMatrix),
  ("mrp.to_rotvec", rodriguesToRotationVector),
  ("mrp.from_rotvec", rodriguesOfRotationVector),
  ("euler.to_dcm", eulerToMatrix),
  ("euler.from_dcm", eulerOfMatrix),
  ("euler.to_quat", eulerToQuaternion),
  ("rotvec.to_dcm", rotationVectorToMatrix),
  ("rotvec.from_dcm", rotationVectorOfMatrix),
  ("dcm._copy", copy),
  ("util.C1", sinc),
  ("util.C2", cosc),
  ("util.C3", halfCosecant),
  ("util.as_expr", itself),
  ("lie.hat", hat),
  ("lie.vee", vee)]

/-- The formula of a name. -/
def ofName? (s : String) : Option Formula := names.lookup s

/-- The name of a formula. -/
def name (f : Formula) : String :=
  match names.find? (·.2 == f) with
  | some (s, _) => s
  | none => ""

/-- The name under which a chain of conversions lists a formula. The two maps of the algebra go by
the name of the algebra there. -/
def nameInChain : Formula → String
  | hat => "algebra.hat"
  | vee => "algebra.vee"
  | f => f.name

variable {α β γ δ : Type}

/-- Applies `f` to the fixed shape that `read` finds in a matrix. -/
def shaped (read : Grid α → Option γ) (f : γ → Grid β) (m : Grid α) : Except Fault (Grid β) :=
  match read m with
  | some x => .ok (f x)
  | none => .error .wrongShape

/-- Applies `f` to the fixed shapes that `read` finds in two matrices. -/
def shaped₂ (read : Grid α → Option γ) (f : γ → γ → Grid β) (m n : Grid α) :
    Except Fault (Grid β) :=
  match read m, read n with
  | some x, some y => .ok (f x y)
  | _, _ => .error .wrongShape

/-- The position in a skew-symmetric matrix from which each component of its vector is read. -/
def skewPositions : List (Nat × Nat × Nat) := [(0, 2, 1), (1, 0, 2), (2, 1, 0)]

/-- The result of a formula at its arguments. The scalar `eps` is the length under which a quotient
by a length is replaced by its limit. -/
def apply [Scalar α] (eps : α) : Formula → List (Grid α) → Except Fault (Grid α)
  | quaternionMul, [p, q] => shaped₂ Grid.toQuaternion? (fun p q => (p * q).toGrid) p q
  | quaternionConj, [q] => shaped Grid.toQuaternion? (fun q => q.conj.toGrid) q
  | quaternionToMatrix, [q] => shaped Grid.toQuaternion? (fun q => q.toMat3.toGrid) q
  | quaternionOfMatrix, [m] => shaped Grid.toMat3? (fun m => (Quaternion.ofMat3 m).toGrid) m
  | quaternionOfRotationVector, [v] =>
    shaped Grid.toVec3? (fun v => (Quaternion.ofRotationVector v).toGrid) v
  | quaternionToRotationVector, [q] =>
    shaped Grid.toQuaternion? (fun q => (q.toRotationVector eps).toGrid) q
  | rodriguesShadow, [r] => shaped Grid.toVec3? (fun r => (Rodrigues.shadow eps r).toGrid) r
  | rodriguesShadowIfOutside, [r] =>
    shaped Grid.toVec3? (fun r => (Rodrigues.shadowIfOutside eps r).toGrid) r
  | rodriguesMul, [a, b] => shaped₂ Grid.toVec3? (fun a b => (Rodrigues.mul eps a b).toGrid) a b
  | rodriguesToMatrix, [r] => shaped Grid.toVec3? (fun r => (Rodrigues.toMat3 r).toGrid) r
  | rodriguesToQuaternion, [r] => shaped Grid.toVec3? (fun r => (Rodrigues.toQuaternion r).toGrid) r
  | rodriguesOfQuaternion, [q] =>
    shaped Grid.toQuaternion? (fun q => (Rodrigues.ofQuaternion q).toGrid) q
  | rodriguesOfMatrix, [m] => shaped Grid.toMat3? (fun m => (Rodrigues.ofMat3 m).toGrid) m
  | rodriguesToRotationVector, [r] =>
    shaped Grid.toVec3? (fun r => (Rodrigues.toRotationVector eps r).toGrid) r
  | rodriguesOfRotationVector, [v] =>
    shaped Grid.toVec3? (fun v => (Rodrigues.ofRotationVector v).toGrid) v
  | eulerToMatrix, [e] => shaped Grid.toEulerAngles? (fun e => e.toMat3.toGrid) e
  | eulerOfMatrix, [m] => shaped Grid.toMat3? (fun m => (EulerAngles.ofMat3 m).toGrid) m
  | eulerToQuaternion, [e] => shaped Grid.toEulerAngles? (fun e => e.toQuaternion.toGrid) e
  | rotationVectorToMatrix, [v] => shaped Grid.toVec3? (fun v => (RotationVector.toMat3 v).toGrid) v
  | rotationVectorOfMatrix, [m] => shaped Grid.toMat3? (fun m => (RotationVector.ofMat3 m).toGrid) m
  | copy, [m] => .ok m
  | sinc, [m] => .ok (m.map Coefficient.sinc)
  | cosc, [m] => .ok (m.map Coefficient.cosc)
  | halfCosecant, [m] => .ok (m.map Coefficient.halfCosecant)
  | itself, [m] => .ok m
  | hat, [v] => shaped Grid.toVec3? (fun v => v.hat.toGrid) v
  | vee, [m] => shaped Grid.toMat3? (fun m => m.vee.toGrid) m
  | _, _ => .error .wrongArity

/-- The understood zeros of the result of a formula of one argument, given those of the argument.
The diagonal of a skew-symmetric matrix is understood, and the two maps between vectors and such
matrices take a zero over as it is. -/
def understood : Formula → List (Nat × Nat) → List (Nat × Nat)
  | hat, zeros =>
    [(0, 0), (1, 1), (2, 2)] ++ (skewPositions.filter fun p => zeros.contains (p.1, 0)).flatMap
      fun p => [p.2, p.2.swap]
  | vee, zeros => (skewPositions.filter fun p => zeros.contains p.2).map fun p => (p.1, 0)
  | _, _ => []

end Formula

end Attitude
