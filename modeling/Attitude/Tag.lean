/-!
# Names of encodings

A rotation can be encoded as numbers in several ways. Each way has a tag, which stands for it in
every table. A program may declare further tags, and two tags are the same only if they were
declared at the same time, whatever their names. A `Key` is what a table is asked for: a tag, or
something that is none and so is found in no table.
-/

namespace Attitude

/-- The tag of an encoding. -/
structure Tag where
  /-- The order of declaration, which tells tags of one name apart. -/
  serial : Nat
  name : String
  /-- Whether the tag was declared as one of rotations; only such tags can be registered. -/
  ofRotations : Bool := true
  deriving DecidableEq, Repr

namespace Tag

/-- The tag that stands for encodings in general and has no data of its own. -/
def anyRotation : Tag := ⟨0, "SO3Representation", true⟩
/-- Rotation matrices. -/
def matrix : Tag := ⟨1, "RotationMatrixRep", true⟩
/-- Unit quaternions. -/
def quaternion : Tag := ⟨2, "QuaternionRep", true⟩
/-- Rotation vectors. -/
def rotationVector : Tag := ⟨3, "RotationVectorRep", true⟩
/-- Euler angles. -/
def euler : Tag := ⟨4, "EulerRep", true⟩
/-- Modified Rodrigues parameters. -/
def rodrigues : Tag := ⟨5, "MrpRep", true⟩

/-- The tags that exist from the start, in the order of their serial numbers. -/
def builtin : List Tag := [anyRotation, matrix, quaternion, rotationVector, euler, rodrigues]

end Tag

/-- What a table is asked for. -/
inductive Key where
  | tag (t : Tag)
  /-- A text that names no tag. -/
  | text (s : String)
  /-- The place of a tag where none was given. -/
  | missing
  deriving DecidableEq, Repr

namespace Key

/-- How a message names what it was asked for. -/
def describe : Key → String
  | tag t => t.name
  | text s => s
  | missing => "None"

/-- The key of a tag that may be missing. -/
def ofTag? : Option Tag → Key
  | some t => tag t
  | none => missing

end Key

end Attitude
