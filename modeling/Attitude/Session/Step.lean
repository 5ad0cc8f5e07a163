import Attitude.Session.Declaration
import Attitude.Session.Question

/-!
# Steps of a session

A step names registers, classes and tags by text, and data by an argument. Questions and
declarations are steps; the other steps make objects or change them.
-/

namespace Attitude

/-- A step of a session. The register of a result comes first, as `dst`. -/
inductive Step (α : Type) where
  -- Making elements
  | new (dst cls : String) (x : Option (Argument α))
  | identity (dst cls : String) (type : Option ScalarType)
  | random (dst cls : String) (x y z w : α)
  | exp (dst cls : String) (x : Argument α)
  -- Matrices of an element
  | log (dst a : String)
  | rotationMatrix (dst a : String)
  | angle (dst a : String)
  | shadow (dst a : String)
  | coordinates (dst a encoding : String)
  | getData (dst a : String)
  -- Group operations
  | mul (dst a : String) (x : Argument α)
  | mulInPlace (a : String) (x : Argument α)
  | invert (a : String)
  | inverse (dst a : String)
  | canonical (dst a : String)
  | cast (dst a : String) (type : Option ScalarType)
  -- Changing an object
  | assign (dst a b : String)
  | setData (a : String) (x : Argument α)
  | setMatrix (a : String) (x : Argument α)
  | setIdentity (a : String) (type : Option ScalarType)
  | setRandom (a : String) (x y z w : α)
  | poke (m : String) (p : Position) (x : α)
  -- The algebra
  | hat (dst : String) (x : Argument α)
  | vee (dst : String) (x : Argument α)
  -- Conversions of data
  | convert (dst : String) (x : Argument α) (source target : String)
  | toCanonical (dst : String) (x : Argument α) (tag : String)
  | fromCanonical (dst : String) (x : Argument α) (tag : String)
  -- All else
  | ask (q : Question α)
  | declare (d : Declaration)
  | configure (change : Setting α)
  | drainLog

end Attitude
