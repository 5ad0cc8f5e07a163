import Attitude.Closeness
import Attitude.Conversion
import Attitude.ElementClass

/-!
# Elements

An element is a rotation of some class. The group operations, the exponential and the logarithm, and
the comparisons are defined here on the class and the data of elements, and answer new data; who
keeps the data is the concern of a session.

Operations that need another encoding of an element go one of two ways. The rotation matrix of an
element comes over the leg to the canonical encoding. Coordinates in a given encoding come over the
router.
-/

namespace Attitude

/-- The class and the data of an element. -/
structure Subject (α : Type) where
  cls : ConcreteClass
  held : Held α

namespace Family

variable {α : Type} [RingOps α]

/-- The data of the identity. The off-diagonal zeros of the identity matrix are understood. -/
def identity (f : Family) (t : ScalarType) : Held α :=
  match f with
  | .matrix =>
    ⟨⟨.ofNumbers t Mat3.one.toGrid, [(0, 1), (0, 2), (1, 0), (1, 2), (2, 0), (2, 1)]⟩, none⟩
  | .quaternion => .fresh (.ofNumbers t Quaternion.one.toGrid)
  | .rotationVector | .euler | .rodrigues => .fresh (.ofNumbers t Vec3.zero.toGrid)

end Family

namespace Context

variable {α : Type} [Ground α]

/-! ### Taking data -/

/-- Refuses numbers that encode no rotation. Nothing is checked where checks are off or symbols are
left. -/
def checkRotation (ctx : Context α) (c : ConcreteClass) (h : Held α) : Except Fault Unit :=
  if ctx.settings.checks then
    match h.datum.numbers? with
    | none => .ok ()
    | some _ => do
      let m ← (← ctx.toCanonical h c.key).datum.numbers
      if ← m.isRotation ctx.settings.validityTol then .ok () else .error (.notRotation c.name)
  else .ok ()

/-- Takes a copy of data of the shape that the encoding of a class asks for. -/
def takeData (ctx : Context α) (c : ConcreteClass) (h : Held α) : Except Fault (Held α) := do
  let (_, traits) ← ctx.registry.find c.key
  if h.datum.shape ≠ traits.shape then throw .wrongShape
  ctx.checkRotation c h
  pure h.copy

/-- Takes the data of a rotation matrix. -/
def takeMatrix (ctx : Context α) (c : ConcreteClass) (h : Held α) : Except Fault (Held α) := do
  if h.datum.shape ≠ [3, 3] then throw .wrongShape
  ctx.takeData c (← ctx.fromCanonical h c.key)

/-! ### Other encodings of an element -/

/-- The rotation matrix of an element. -/
def rotationMatrix (ctx : Context α) (a : Subject α) : Except Fault (Held α) :=
  ctx.toCanonical a.held a.cls.key

/-- The data of an element in the encoding of a key. -/
def coordinates (ctx : Context α) (a : Subject α) (k : Key) : Asking (Held α) :=
  ctx.convert a.held a.cls.key k

/-- The data of an element in the encoding of a class. -/
def dataFor (ctx : Context α) (c : ConcreteClass) (a : Subject α) : Asking (Held α) :=
  ctx.coordinates a c.key

/-- The logarithm of an element: its rotation vector. -/
def log (ctx : Context α) (a : Subject α) : Asking (Held α) :=
  ctx.coordinates a (.tag .rotationVector)

/-- The element of a class with the given rotation vector. -/
def exp (ctx : Context α) (c : ElementClass) (v : Held α) : Asking (ConcreteClass × Held α) := do
  if v.datum.shape ≠ [3, 1] then throw .wrongShape
  let h ← ctx.convert v (.tag .rotationVector) c.key
  let c ← c.concrete
  return (c, ← ctx.takeData c h)

/-! ### Group operations -/

/-- The product of the rotation matrices of two elements. -/
def matrixProduct (ctx : Context α) (a b : Subject α) : Except Fault (Held α) := do
  let m ← ctx.rotationMatrix a
  let n ← ctx.rotationMatrix b
  (Datum.apply₂ multiplied m.datum n.datum).map .fresh

/-- The data of the product of two elements, in the encoding of the first one. -/
def mul (ctx : Context α) (a b : Subject α) : Asking (Held α) :=
  match a.cls.family with
  | .matrix => do
    let n ← ctx.rotationMatrix b
    return ⟨← a.held.sheet.product n.sheet, none⟩
  | .quaternion => do
    let q ← ctx.coordinates b (.tag .quaternion)
    ctx.settings.applyFormula₂ .quaternionMul a.held q
  | .rodrigues => do
    let r ← ctx.coordinates b (.tag .rodrigues)
    ctx.settings.applyFormula₂ .rodriguesMul a.held r
  | .rotationVector => do
    ctx.settings.applyFormula .rotationVectorOfMatrix (← ctx.matrixProduct a b)
  | .euler => do
    ctx.settings.applyFormula .eulerOfMatrix (← ctx.matrixProduct a b)

/-- The data of the inverse of an element. -/
def inv (ctx : Context α) (a : Subject α) : Except Fault (Held α) :=
  match a.cls.family with
  | .matrix => do return ⟨← a.held.sheet.transpose, none⟩
  | .quaternion => ctx.settings.applyFormula .quaternionConj a.held
  | .rotationVector | .rodrigues => do return ⟨← a.held.sheet.negate, none⟩
  | .euler => do
    let m ← ctx.rotationMatrix a
    let d ← m.datum.apply transposed
    ctx.settings.applyFormula .eulerOfMatrix (.fresh d)

/-! ### Comparisons -/

/-- Whether two elements are close. Elements of one encoding that compute as quaternions compare
their data up to its sign; all others compare their rotation matrices. -/
def isClose (ctx : Context α) (tol : α) (a b : Subject α) : Except Fault Bool := do
  if a.cls.tag = b.cls.tag ∧ a.cls.family = .quaternion then
    let p ← a.held.datum.numbers
    let q ← b.held.datum.numbers
    Grid.isCloseUpToSign tol p q
  else
    let m ← ctx.rotationMatrix a
    let n ← ctx.rotationMatrix b
    Grid.isClose tol (← m.datum.numbers) (← n.datum.numbers)

/-- Whether two elements are equal. Elements of one encoding compare their data, all others their
rotation matrices. -/
def equal (ctx : Context α) (a b : Subject α) : Except Fault Bool := do
  if a.cls.tag = b.cls.tag then
    return Grid.equal (← a.held.datum.numbers) (← b.held.datum.numbers)
  else
    let m ← ctx.rotationMatrix a
    let n ← ctx.rotationMatrix b
    return Grid.equal (← m.datum.numbers) (← n.datum.numbers)

/-- Whether an element is close to the identity of its class. -/
def isIdentity (ctx : Context α) (tol : α) (a : Subject α) : Except Fault Bool :=
  ctx.isClose tol a ⟨a.cls, a.cls.family.identity .numeric⟩

/-! ### Operations of one family -/

/-- The angle of an element held as a rotation vector: the length of its data, which is a row or a
column. -/
def angle (a : Subject α) : Except Fault (Held α) :=
  match a.cls.family with
  | .rotationVector =>
    if a.held.datum.rows = 1 ∨ a.held.datum.cols = 1 then
      (a.held.datum.apply fun _ m => .ok (Grid.single m.norm)).map .fresh
    else .error .unfitProduct
  | _ => .error .noOperation

/-- The other set of parameters of an element held as modified Rodrigues parameters. -/
def shadow (ctx : Context α) (a : Subject α) : Except Fault (Held α) :=
  match a.cls.family with
  | .rodrigues => ctx.settings.applyFormula .rodriguesShadow a.held
  | _ => .error .noOperation

end Context

end Attitude
