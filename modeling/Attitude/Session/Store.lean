import Attitude.Draw

/-!
# Objects and registers

Elements and matrices are objects with an identity. An element refers to the matrix object that is
its data, so a matrix that was taken out of an element changes with it. A register is a name for an
object, and several registers may name the same one.
-/

namespace Attitude

/-- The identity of an element. -/
structure ElementId where
  index : Nat
  deriving DecidableEq, Repr

/-- What a register holds. -/
inductive Ref where
  | element (e : ElementId)
  | matrix (m : MatrixId)
  deriving DecidableEq, Repr

/-- What an element object holds: its class and the matrix object that is its data. -/
structure ElementCell where
  cls : ConcreteClass
  data : MatrixId
  deriving DecidableEq, Repr

/-- All objects and all registers. -/
structure Store (α : Type) where
  matrices : Array (Sheet α) := #[]
  elements : Array ElementCell := #[]
  registers : Table String Ref := .empty
  /-- How many contents were put into matrix objects, which is the label of the next stamp. -/
  labels : Nat := 0

namespace Store

variable {α : Type}

/-! ### Reading -/

/-- The object that a register names. -/
def ref (s : Store α) (r : String) : Except Fault Ref :=
  match s.registers.get? r with
  | some x => .ok x
  | none => .error .unknownName

/-- The content of a matrix object. -/
def sheet (s : Store α) (m : MatrixId) : Except Fault (Sheet α) :=
  match s.matrices[m.index]? with
  | some x => .ok x
  | none => .error .unknownName

/-- A matrix object in the course of a computation. -/
def held (s : Store α) (m : MatrixId) : Except Fault (Held α) := do
  return ⟨← s.sheet m, some m⟩

/-- The content of an element object. -/
def cell (s : Store α) (e : ElementId) : Except Fault ElementCell :=
  match s.elements[e.index]? with
  | some x => .ok x
  | none => .error .unknownName

/-- The class and the data of an element object. -/
def subject (s : Store α) (e : ElementId) : Except Fault (Subject α) := do
  let c ← s.cell e
  return ⟨c.cls, ← s.held c.data⟩

/-- The element that a register names. -/
def elementId (s : Store α) (r : String) : Except Fault ElementId := do
  match ← s.ref r with
  | .element e => return e
  | .matrix _ => throw .noOperation

/-- The class and the data of the element that a register names. -/
def named (s : Store α) (r : String) : Except Fault (Subject α) := do
  s.subject (← s.elementId r)

/-- The matrix that a register names, or the data of the element that it names. -/
def dataOf (s : Store α) (r : String) : Except Fault (Held α) := do
  match ← s.ref r with
  | .element e => return (← s.subject e).held
  | .matrix m => s.held m

/-! ### Writing -/

/-- Lets a register name an object. -/
def bind (s : Store α) (r : String) (x : Ref) : Store α :=
  { s with registers := s.registers.insert r x }

section Ground

variable [Ground α]

/-- The object of a matrix: the one that it is already, or a new one with its content. -/
def place (s : Store α) (h : Held α) : MatrixId × Store α :=
  match h.home with
  | some m => (m, s)
  | none =>
    (⟨s.matrices.size⟩,
      { s with matrices := s.matrices.push (h.sheet.stamp s.labels), labels := s.labels + 1 })

/-- Lets a register name a matrix. -/
def bindMatrix (s : Store α) (r : String) (h : Held α) : Store α :=
  let (m, s) := s.place h
  s.bind r (.matrix m)

/-- Lets a register name a new element of a class with the given data. -/
def bindElement (s : Store α) (r : String) (c : ConcreteClass) (h : Held α) : Store α :=
  let (m, s) := s.place h
  { s with elements := s.elements.push ⟨c, m⟩ }.bind r (.element ⟨s.elements.size⟩)

/-- Gives an element another matrix as its data. The matrix that was its data stays as it is. -/
def replaceData (s : Store α) (e : ElementId) (h : Held α) : Store α :=
  let (m, s) := s.place h
  { s with elements := s.elements.modify e.index fun c => { c with data := m } }

/-- Gives a matrix object another content. -/
def overwrite (s : Store α) (m : MatrixId) (x : Sheet α) : Store α :=
  { s with
    matrices := s.matrices.setIfInBounds m.index (x.stamp s.labels), labels := s.labels + 1 }

end Ground

end Store

end Attitude
