import Attitude.Tag
import Attitude.Text.Quoted

/-!
# Why an operation fails

Every failure is a value that names its cause. Causes of this library's own have a message; the
others are failures of the arguments themselves and carry none.
-/

namespace Attitude

/-- The direction of a leg. -/
inductive Direction where
  | toCanonical
  | fromCanonical
  deriving DecidableEq, Repr

/-- The cause of a failure. -/
inductive Fault where
  /-- The data does not have the shape that a formula or an encoding asks for. -/
  | wrongShape
  /-- A formula was given a number of arguments that it does not take. -/
  | wrongArity
  /-- A text is no number, or lists differ in length or in depth. -/
  | unreadable
  /-- Lists within lists are more than the rows of a matrix. -/
  | tooDeep
  /-- An argument is of a kind that is no data at all. -/
  | notData
  /-- A whole number is beyond the range of doubles. -/
  | beyondRange
  /-- A tag that is registered was not declared as one of rotations. -/
  | notOfRotations
  /-- A registration names something that is no tag. -/
  | notTag
  /-- A tag is asked for an instance. -/
  | tagInstance
  | noTraits (k : Key)
  | noElementClass (k : Key)
  | noLeg (d : Direction) (t : Tag)
  | notShared (a b : Tag)
  /-- A class is defined for something that has no traits. -/
  | definedWithoutTraits (k : Key)
  /-- A class is defined for a tag that lacks a conversion to or from the canonical encoding. -/
  | definedWithoutLegs (t : Tag) (className : String)
  /-- The name of a tag or of a class contains the null character. -/
  | nullInName
  /-- A class that leaves operations open is asked for an instance. -/
  | abstractClass
  /-- A group operation is applied to something that is no element. -/
  | notElement
  /-- An object lacks the operation that is asked of it. -/
  | noOperation
  /-- Data with free symbols has no numeric value. -/
  | freeSymbols
  /-- The type of scalars to cast to is missing. -/
  | noScalarType
  | notSkew
  | notRotation (className : String)
  /-- Dimensions do not fit an entrywise operation. -/
  | unfitDimensions
  /-- Dimensions do not fit an operation on matrices, or a matrix is no vector. -/
  | unfitProduct
  /-- A determinant is asked of a matrix that is not square. -/
  | notSquare
  /-- A position lies outside a matrix. -/
  | outOfRange
  /-- A symbol that an evaluation needs has no value. -/
  | unassignedSymbol
  /-- Four zeros are no direction to draw a rotation from. -/
  | zeroDraw
  /-- A register or a class that does not exist. -/
  | unknownName
  deriving DecidableEq, Repr

namespace Fault

/-- The whole message of a fault, empty where the fault has none of its own. -/
def text : Fault → String
  | tagInstance => "this class is just for scoping, do not instantiate"
  | noTraits k => "no traits registered for representation " ++ k.describe
  | noElementClass k => "no element class defined for representation " ++ k.describe
  | noLeg .toCanonical t => "no conversion to canonical registered for " ++ t.name
  | noLeg .fromCanonical t => "no conversion from canonical registered for " ++ t.name
  | notShared a b => a.name ++ " and " ++ b.name ++ " do not share a canonical representation"
  | definedWithoutTraits k => Text.quoted ("no traits registered for representation " ++ k.describe)
  | definedWithoutLegs t c =>
    "representation " ++ t.name ++
      " has no canonical conversions, register them before defining " ++ c
  | freeSymbols => "cannot evaluate symbolic expression numerically"
  | notSkew => "matrix is not skew-symmetric:"
  | notRotation c => c ++ " data does not encode a rotation:"
  | _ => ""

/-- The first line of the message of a fault. -/
def message (e : Fault) : String := String.ofList (e.text.toList.takeWhile (· ≠ '\n'))

end Fault

end Attitude
