import Attitude.Session.Argument
import Attitude.Session.Catalog
import Attitude.Session.Store

/-!
# The world of a session

The world is everything that a step can change, apart from the router: the objects with their
registers, the settings, and the catalog. This module reads arguments of steps in a world.
-/

namespace Attitude

/-- All that steps can change, apart from the router. -/
structure World (α : Type) where
  store : Store α := {}
  settings : Settings α
  catalog : Catalog := .initial

namespace World

variable {α : Type}

/-- What conversions depend on. -/
def context (w : World α) : Context α := ⟨w.settings, w.catalog.registry⟩

/-- An argument as the matrix that it stands for. An element is no matrix. -/
def matrixOf (w : World α) : Argument α → Except Fault (Held α)
  | .data x => x.map fun m => .fresh (.numeric m)
  | .gap m => .ok (.fresh (.numeric m))
  | .symbols x => x.map fun m => .fresh (.symbolic (.entries m))
  | .register r => do
    match ← w.store.ref r with
    | .matrix m => w.store.held m
    | .element _ => throw .notData

/-- The element that an argument names, if it names one. -/
def elementOf? (w : World α) : Argument α → Except Fault (Option (Subject α))
  | .register r => do
    match ← w.store.ref r with
    | .element e => return some (← w.store.subject e)
    | .matrix _ => return none
  | _ => .ok none

/-- The element that an argument names, as an operand. -/
def operand (w : World α) (x : Argument α) : Except Fault (Subject α) := do
  match ← w.elementOf? x with
  | some b => return b
  | none => throw .notElement

/-- The matrix that an argument stands for, if it stands for one. -/
def matrixOf? (w : World α) (x : Argument α) : Except Fault (Option (Held α)) := do
  match x with
  | .gap _ => return none
  | .data _ | .symbols _ => return (w.matrixOf x).toOption
  | .register r =>
    match ← w.store.ref r with
    | .matrix m => return some (← w.store.held m)
    | .element _ => return none

/-- The entrywise product of a matrix object and an argument. -/
def entrywiseProduct [Ground α] (w : World α) (m : MatrixId) (x : Argument α) :
    Except Fault (Held α) := do
  let a ← w.store.sheet m
  match ← w.matrixOf? x with
  | some b => return ⟨← a.entrywiseProduct b.sheet, none⟩
  | none => throw .notElement

/-- The data of an element of a class made from an argument: nothing gives the identity, an element
is converted, and anything else is taken as data. -/
def makeData [Ground α] (w : World α) (c : ConcreteClass) (x : Option (Argument α)) :
    Asking (Held α) := do
  match x with
  | none | some (.gap _) => return c.family.identity .numeric
  | some x =>
    match ← w.elementOf? x with
    | some b => w.context.dataFor c b
    | none => w.context.takeData c (← w.matrixOf x)

end World

end Attitude
