import Attitude.Tag
import Attitude.Fault

/-!
# Classes of elements

A class says how its elements compute (`Family`) and how their data is encoded (a tag). The two
belong together in the classes that exist from the start, and a program may define a class that
combines the family of one class with another tag. A class without a family has no elements.
-/

namespace Attitude

/-- How elements compute their group operations. -/
inductive Family where
  | matrix
  | quaternion
  | rotationVector
  | euler
  | rodrigues
  deriving DecidableEq, Repr

/-- A class of elements. -/
structure ElementClass where
  name : String
  /-- How its elements compute; a class that leaves this open has no elements. -/
  family : Option Family
  /-- The tag of the data, missing in the common ancestor of all classes. -/
  tag : Option Tag
  deriving DecidableEq, Repr

/-- A class that can have elements. -/
structure ConcreteClass where
  name : String
  family : Family
  tag : Option Tag
  deriving DecidableEq, Repr

namespace ElementClass

/-- The class as one that can have elements. -/
def concrete (c : ElementClass) : Except Fault ConcreteClass :=
  match c.family with
  | some f => .ok ⟨c.name, f, c.tag⟩
  | none => .error .abstractClass

/-- What tables are asked for on behalf of the class. -/
def key (c : ElementClass) : Key := .ofTag? c.tag

/-- The common ancestor of all classes. -/
def base : ElementClass := ⟨"SO3Base", none, none⟩
/-- Elements held as rotation matrices. -/
def matrix : ElementClass := ⟨"Dcm", some .matrix, some .matrix⟩
/-- Elements held as unit quaternions. -/
def quaternion : ElementClass := ⟨"Quat", some .quaternion, some .quaternion⟩
/-- Elements held as rotation vectors. -/
def rotationVector : ElementClass := ⟨"AngleAxis", some .rotationVector, some .rotationVector⟩
/-- Elements held as Euler angles. -/
def euler : ElementClass := ⟨"Euler", some .euler, some .euler⟩
/-- Elements held as modified Rodrigues parameters. -/
def rodrigues : ElementClass := ⟨"Mrp", some .rodrigues, some .rodrigues⟩

/-- The classes of elements that exist from the start. -/
def builtin : List ElementClass := [matrix, quaternion, rotationVector, euler, rodrigues]

end ElementClass

/-- What tables are asked for on behalf of the class. -/
def ConcreteClass.key (c : ConcreteClass) : Key := .ofTag? c.tag

end Attitude
