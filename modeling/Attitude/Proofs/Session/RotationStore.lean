import Attitude.Proofs.Elements.Encodings
import Attitude.Session.Step

/-!
# A plain store of rotations

The objects of a plain store are rotation matrices, and a register is a name for one of them. The
group operations are those of matrices. Of the encoding of an object nothing is left but its name:
an object in the canonical encoding is its own canonical form, and any other one has a copy there.

A plain store takes the steps of a session that concern rotations (`Step.Rotates`). It is what
sessions are compared with, so it fails where they fail, with the same fault.
-/

namespace Attitude

namespace Encoding

/-- The encoding of a class of elements. -/
def ofName : String → Except Fault Encoding
  | "Dcm" => .ok matrix
  | "Quat" => .ok quaternion
  | "Mrp" => .ok rodrigues
  | _ => .error .unknownName

/-- The encodings go by the names of their classes. -/
theorem ofName_name (k : Encoding) : ofName k.name = .ok k := by
  cases k <;> rfl

/-- The rotation that data stands for. -/
noncomputable def rotation : Encoding → Grid ℝ → Except Fault (Mat3 ℝ)
  | matrix, m => m.toMat3?.elim (.error .wrongShape) .ok
  | quaternion, m => m.toQuaternion?.elim (.error .wrongShape) fun q => .ok q.toMat3
  | rodrigues, m => m.toVec3?.elim (.error .wrongShape) fun r => .ok (Rodrigues.toMat3 r)

/-- The rotation of data that encodes one. -/
theorem Encodes.rotation_eq {k : Encoding} {m : Grid ℝ} {R : Mat3 ℝ} (h : k.Encodes m R) :
    k.rotation m = .ok R := by
  cases h with
  | matrix hR => rfl
  | quaternion hq hR => exact congrArg Except.ok hR
  | rodrigues hR => exact congrArg Except.ok hR

end Encoding

/-- Rotation matrices as objects, and names for them. -/
structure RotationStore where
  /-- Every object with the name of its encoding. -/
  objects : Array (Encoding × Mat3 ℝ) := #[]
  registers : Table String Nat := .empty

namespace RotationStore

/-! ## Reading -/

/-- The object that a register names. -/
def object (p : RotationStore) (r : String) : Except Fault Nat :=
  match p.registers.get? r with
  | some i => .ok i
  | none => .error .unknownName

/-- The encoding and the rotation of an object. -/
def content (p : RotationStore) (i : Nat) : Except Fault (Encoding × Mat3 ℝ) :=
  match p.objects[i]? with
  | some x => .ok x
  | none => .error .unknownName

theorem content_eq_ok_iff {p : RotationStore} {i : Nat} {x : Encoding × Mat3 ℝ} :
    p.content i = .ok x ↔ p.objects[i]? = some x := by
  unfold content
  cases p.objects[i]? with
  | none => exact ⟨nofun, nofun⟩
  | some y => exact ⟨fun h => by cases h; rfl, fun h => by cases h; rfl⟩

/-- The encoding and the rotation of the object that a register names. -/
def named (p : RotationStore) (r : String) : Except Fault (Encoding × Mat3 ℝ) := do
  p.content (← p.object r)

/-- The rotation of the object that a register names. -/
def value (p : RotationStore) (r : String) : Except Fault (Mat3 ℝ) := do return (← p.named r).2

/-- The rotation of an operand, which has to be an object. -/
def operand (p : RotationStore) : Argument ℝ → Except Fault (Mat3 ℝ)
  | .register r => p.value r
  | _ => .error .notElement

/-- The rotation that a new object is made with: nothing gives the identity, a register the
rotation of its object, and data the rotation that it stands for. A store that is `refusing` takes
no data. -/
noncomputable def made (p : RotationStore) (refusing : Bool) (k : Encoding) :
    Option (Argument ℝ) → Except Fault (Mat3 ℝ)
  | none | some (.gap _) => .ok 1
  | some (.register r) => p.value r
  | some (.data x) => do
    let R ← k.rotation (← x)
    if refusing then .error (.notRotation k.name) else .ok R
  | some (.symbols _) => .error .freeSymbols

/-! ## Writing -/

/-- Lets a register name an object. -/
def bind (p : RotationStore) (r : String) (i : Nat) : RotationStore :=
  { p with registers := p.registers.insert r i }

/-- Lets a register name a new object. -/
def create (p : RotationStore) (r : String) (k : Encoding) (R : Mat3 ℝ) : RotationStore :=
  { p with objects := p.objects.push (k, R) }.bind r p.objects.size

/-- Gives an object another rotation. -/
def put (p : RotationStore) (i : Nat) (k : Encoding) (R : Mat3 ℝ) : RotationStore :=
  { p with objects := p.objects.setIfInBounds i (k, R) }

/-! ## Steps and runs -/

/-- Takes a step. -/
noncomputable def step (refusing : Bool) (p : RotationStore) :
    Step ℝ → Except Fault RotationStore
  | .new dst cls x => do
    let k ← Encoding.ofName cls
    return p.create dst k (← p.made refusing k x)
  | .identity dst cls _ => do
    return p.create dst (← Encoding.ofName cls) 1
  | .mul dst a x => do
    let i ← p.object a
    let (k, A) ← p.content i
    return p.create dst k (A * (← p.operand x))
  | .mulInPlace a x => do
    let i ← p.object a
    let (k, A) ← p.content i
    return p.put i k (A * (← p.operand x))
  | .invert a => do
    let i ← p.object a
    let (k, A) ← p.content i
    return p.put i k A.transpose
  | .inverse dst a => do
    let (k, A) ← p.named a
    return p.create dst k A.transpose
  | .canonical dst a => do
    let i ← p.object a
    let (k, A) ← p.content i
    if k = .matrix then return p.bind dst i else return p.create dst .matrix A
  | .assign dst a b => do
    let i ← p.object a
    let (k, _) ← p.content i
    return (p.put i k (← p.value b)).bind dst i
  | .setIdentity a _ => do
    let i ← p.object a
    let (k, _) ← p.content i
    return p.put i k 1
  | _ => .error .noOperation

/-- The store after a step, which a step that fails leaves as it is. -/
noncomputable def after (refusing : Bool) (p : RotationStore) (x : Step ℝ) : RotationStore :=
  match p.step refusing x with
  | .ok q => q
  | .error _ => p

/-- The store after some steps. -/
noncomputable def run (refusing : Bool) (xs : List (Step ℝ)) : RotationStore :=
  xs.foldl (after refusing) {}

end RotationStore

/-! ## Steps of rotations -/

/-- Data in an argument is valid data of a rotation. -/
def Argument.RotationOf (k : Encoding) : Argument ℝ → Prop
  | .data x => ∀ m, x = .ok m → ∃ R, k.Encodes m R
  | .symbols _ => False
  | _ => True

/-- The step makes elements of the exact encodings or applies group operations. -/
def Step.Rotates : Step ℝ → Prop
  | .new _ cls x => ∃ k : Encoding, cls = k.name ∧ ∀ y ∈ x, y.RotationOf k
  | .identity _ cls _ => ∃ k : Encoding, cls = k.name
  | .mul _ _ _ | .mulInPlace _ _ | .invert _ | .inverse _ _ | .canonical _ _ | .assign _ _ _
  | .setIdentity _ _ => True
  | _ => False

end Attitude
