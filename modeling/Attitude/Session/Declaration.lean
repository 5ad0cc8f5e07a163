import Attitude.Router
import Attitude.Session.Catalog

/-!
# Declarations

A declaration extends the catalog of a program: by a tag, by the traits of a tag, by conversions, or
by a class. It names tags and classes by text and fails as a whole, so `Catalog.declare` answers the
extended catalog or the reason why there is none.
-/

namespace Attitude

/-- A declaration of a program. -/
inductive Declaration where
  | tag (name : String) (ofRotations : Bool)
  /-- The traits of a tag; without a canonical encoding, rotation matrices are it. -/
  | traits (tag : String) (shape : List Nat) (canonical : Option String)
  /-- The two legs of a tag. -/
  | legs (tag : String) (toCanonical fromCanonical : Formula)
  /-- A direct rule between two tags. -/
  | direct (source target : String) (f : Formula)
  /-- A class that computes like its parent. Without a tag it has the tag of its parent. -/
  | elementClass (name : String) (tag : Option String) (parent : String)

/-- What a declaration brings about. -/
structure Declared where
  catalog : Catalog
  /-- Why remembered chains are forgotten, if they are. -/
  event : Option Event := none
  /-- The traits that were registered. -/
  registered : Option (Tag × Traits) := none

namespace Catalog

/-- The catalog with a class that is declared to hold the elements of a tag. The tag needs traits
and both legs. -/
def declareHolder (c : Catalog) (name : String) (k : Key) (parent : ElementClass) :
    Except Fault Catalog :=
  match c.registry.find k with
  | .error _ => .error (.definedWithoutTraits k)
  | .ok (t, _) =>
    if c.registry.hasLegs k then .ok (c.addHolder t ⟨name, parent.family, some t⟩)
    else .error (.definedWithoutLegs t name)

/-- Refuses a name with the null character in it. -/
def checkName (name : String) : Except Fault Unit :=
  if name.contains '\x00' then .error .nullInName else .ok ()

/-- Extends the catalog by a declaration. -/
def declare (c : Catalog) : Declaration → Except Fault Declared
  | .tag name ofRotations => do
    checkName name
    return { catalog := c.declareTag name ofRotations }
  | .traits tag shape canonical => do
    let t ← c.tagOfRotations tag
    let k ← match canonical with
      | some name => c.tagOfRotations name
      | none => pure Tag.matrix
    return { catalog := c.setTraits t ⟨shape, k⟩, registered := some (t, ⟨shape, k⟩) }
  | .legs tag toCanonical fromCanonical => do
    let (t, _) ← c.registry.find (c.key tag)
    return { catalog := c.setLegs t toCanonical fromCanonical, event := some (.registeredPivot t) }
  | .direct source target f => do
    let (a, _) ← c.registry.find (c.key source)
    let (b, _) ← c.registry.find (c.key target)
    return { catalog := c.setDirect a b f, event := some (.registeredDirect a b) }
  | .elementClass name tag parent => do
    let p ← c.classNamed parent
    checkName name
    match tag with
    | none => return { catalog := c.addClass { p with name := name } }
    | some tag => return { catalog := ← c.declareHolder name (c.key tag) p }

end Catalog

end Attitude
