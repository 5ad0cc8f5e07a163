import Attitude.Conversion
import Attitude.ElementClass

/-!
# Tags, classes and conversions of a program

The catalog holds the registry of encodings together with the names of tags and classes and, for
every tag, the class that holds its elements.
-/

namespace Attitude

/-- The tags, classes and conversions of a program. -/
structure Catalog where
  registry : Registry Formula := {}
  tags : Table String Tag := .empty
  classes : Table String ElementClass := .empty
  /-- The class that holds the elements of a tag. -/
  holders : Table Tag ElementClass := .empty
  /-- How many tags were declared, which is the serial number of the next one. -/
  declared : Nat := 0

namespace Catalog

/-- The encodings and conversions that exist from the start. -/
def builtinRegistry : Registry Formula where
  traits := .ofList [
    (.matrix, ⟨[3, 3], .matrix⟩),
    (.quaternion, ⟨[4, 1], .matrix⟩),
    (.rotationVector, ⟨[3, 1], .matrix⟩),
    (.euler, ⟨[3, 1], .matrix⟩),
    (.rodrigues, ⟨[3, 1], .matrix⟩)]
  toCanonical := .ofList [
    (.matrix, .copy),
    (.quaternion, .quaternionToMatrix),
    (.rotationVector, .rotationVectorToMatrix),
    (.euler, .eulerToMatrix),
    (.rodrigues, .rodriguesToMatrix)]
  fromCanonical := .ofList [
    (.matrix, .copy),
    (.quaternion, .quaternionOfMatrix),
    (.rotationVector, .rotationVectorOfMatrix),
    (.euler, .eulerOfMatrix),
    (.rodrigues, .rodriguesOfMatrix)]
  direct := .ofList [
    ((.rotationVector, .quaternion), .quaternionOfRotationVector),
    ((.quaternion, .rotationVector), .quaternionToRotationVector),
    ((.euler, .quaternion), .eulerToQuaternion),
    ((.rodrigues, .quaternion), .rodriguesToQuaternion),
    ((.quaternion, .rodrigues), .rodriguesOfQuaternion),
    ((.rodrigues, .rotationVector), .rodriguesToRotationVector),
    ((.rotationVector, .rodrigues), .rodriguesOfRotationVector)]

/-- The catalog of a program that has declared nothing yet. -/
def initial : Catalog where
  registry := builtinRegistry
  tags := .ofList (Tag.builtin.map fun t => (t.name, t))
  classes := .ofList ((.base :: ElementClass.builtin).map fun c => (c.name, c))
  holders := .ofList (ElementClass.builtin.filterMap fun c => c.tag.map fun t => (t, c))
  declared := Tag.builtin.length

/-- The key of a name: the tag of that name, or the name itself. -/
def key (c : Catalog) (name : String) : Key :=
  match c.tags.get? name with
  | some t => .tag t
  | none => .text name

/-- The class of a name. -/
def classNamed (c : Catalog) (name : String) : Except Fault ElementClass :=
  match c.classes.get? name with
  | some k => .ok k
  | none => .error .unknownName

/-- The key of a name that may be that of a class, which then stands for its tag. -/
def keyOfClassOrTag (c : Catalog) (name : String) : Key :=
  match c.classes.get? name with
  | some k => k.key
  | none => c.key name

/-- The class that holds the elements of a tag. -/
def holder (c : Catalog) (k : Key) : Except Fault ElementClass :=
  match k with
  | .tag t =>
    match c.holders.get? t with
    | some cls => .ok cls
    | none => .error (.noElementClass k)
  | _ => .error (.noElementClass k)

/-- The tag of rotations that a registration names. -/
def tagOfRotations (c : Catalog) (name : String) : Except Fault Tag :=
  match c.tags.get? name with
  | some t => if t.ofRotations then .ok t else .error .notOfRotations
  | none => .error .notTag

/-! ### Declarations -/

/-- Declares a tag. It is a new one even if its name is taken; the name then stands for the new one.
-/
def declareTag (c : Catalog) (name : String) (ofRotations : Bool) : Catalog :=
  { c with
    tags := c.tags.insert name ⟨c.declared, name, ofRotations⟩
    declared := c.declared + 1 }

/-- Registers the traits of a tag. -/
def setTraits (c : Catalog) (t : Tag) (r : Traits) : Catalog :=
  { c with registry := { c.registry with traits := c.registry.traits.insert t r } }

/-- Registers the two legs of a tag. -/
def setLegs (c : Catalog) (t : Tag) (toCanonical fromCanonical : Formula) : Catalog :=
  { c with
    registry :=
      { c.registry with
        toCanonical := c.registry.toCanonical.insert t toCanonical
        fromCanonical := c.registry.fromCanonical.insert t fromCanonical } }

/-- Registers a direct rule between two tags. -/
def setDirect (c : Catalog) (a b : Tag) (f : Formula) : Catalog :=
  { c with registry := { c.registry with direct := c.registry.direct.insert (a, b) f } }

/-- Defines a class that holds no tag of its own. -/
def addClass (c : Catalog) (cls : ElementClass) : Catalog :=
  { c with classes := c.classes.insert cls.name cls }

/-- Defines a class that holds the elements of a tag. -/
def addHolder (c : Catalog) (t : Tag) (cls : ElementClass) : Catalog :=
  { c.addClass cls with holders := c.holders.insert t cls }

end Catalog

end Attitude
