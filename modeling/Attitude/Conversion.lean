import Attitude.Formula
import Attitude.Router
import Attitude.Sheet
import Attitude.Validity

/-!
# Conversions of data

A conversion applies the links of a chain one after the other. A copy makes a new matrix with the
same content, the formula that answers its argument keeps the object, and every other formula makes
a new matrix.

Two ways lead from one encoding to another. `convert` asks the router, which prefers direct rules
and keeps a log; `toCanonical` and `fromCanonical` use the legs of the encoding and leave no trace.
-/

namespace Attitude

/-- The settings of a program. -/
structure Settings (α : Type) where
  /-- The tolerance of comparisons that name none. -/
  defaultTol : α
  /-- The length under which a quotient by a length is replaced by its limit. -/
  eps : α
  /-- Whether data is checked before it is taken. -/
  checks : Bool
  /-- The tolerance of the checks. -/
  validityTol : α
  deriving Repr

/-- The settings that a program starts with. -/
def Settings.initial {α : Type} [FieldOps α] : Settings α :=
  ⟨lit 1 / lit 1000000, lit 1 / lit 10000000, false, lit 1 / lit 1000000⟩

/-- The name of a link of a chain. -/
def Link.name : Link Formula → String
  | .copy => "convert._copy"
  | .rule f => f.nameInChain

/-- A formula of one argument as a map on matrices over every kind of scalar. -/
def Formula.transform {α : Type} (f : Formula) (eps : α) : Transform α :=
  fun constant m => f.apply (constant eps) [m]

/-- A formula of two arguments as a map on matrices over every kind of scalar. -/
def Formula.transform₂ {α : Type} (f : Formula) (eps : α) : Transform₂ α :=
  fun constant a b => f.apply (constant eps) [a, b]

/-- The matrix that a formula expects to be skew-symmetric, as a map on its argument: the argument
itself for the vector of a matrix, and the skew part for the rotation vector of a matrix. -/
def Formula.skewInput? {α : Type} : Formula → Option (Transform α)
  | .vee => some fun _ m => .ok m
  | .rotationVectorOfMatrix => some fun _ m =>
    Formula.shaped Grid.toMat3? (fun m => (RotationVector.skewPart m).toGrid) m
  | _ => none

section Ground

variable {α : Type} [Ground α]

/-- Refuses numbers that a formula expects to be skew-symmetric and that are not. Nothing is checked
where checks are off or symbols are left. -/
def Settings.checkSkew (s : Settings α) (f : Formula) (d : Datum α) : Except Fault Unit :=
  match s.checks, f.skewInput? with
  | true, some part => do
    match (← d.apply part).numbers? with
    | some m => if m.toMat3?.all (Mat3.isSkew s.validityTol) then .ok () else .error .notSkew
    | none => .ok ()
  | _, _ => .ok ()

/-- Applies a formula of one argument. -/
def Settings.applyFormula (s : Settings α) (f : Formula) (h : Held α) : Except Fault (Held α) :=
  match f with
  | .itself => .ok h
  | .copy => .ok h.copy
  | _ => do
    let d ← h.datum.apply (f.transform s.eps)
    s.checkSkew f h.datum
    pure ⟨⟨d, f.understood h.sheet.understood⟩, none⟩

/-- Applies a formula of two arguments. -/
def Settings.applyFormula₂ (s : Settings α) (f : Formula) (a b : Held α) : Except Fault (Held α) :=
  (Datum.apply₂ (f.transform₂ s.eps) a.datum b.datum).map .fresh

/-- Applies one link of a chain. -/
def Settings.applyLink (s : Settings α) (h : Held α) : Link Formula → Except Fault (Held α)
  | .copy => .ok h.copy
  | .rule f => s.applyFormula f h

/-- Applies the links of a chain one after the other. -/
def Settings.applyRoute (s : Settings α) (route : Route Formula) (h : Held α) :
    Except Fault (Held α) :=
  route.links.foldlM s.applyLink h

end Ground

/-- What conversions depend on. -/
structure Context (α : Type) where
  settings : Settings α
  registry : Registry Formula

/-- A computation that may ask the router for chains and may fail. What the router has learned
stays, also after a failure. -/
abbrev Asking := ExceptT Fault (StateM (Router Formula))

namespace Context

variable {α : Type}

/-- Asks the router for the chain of a conversion. -/
def route (ctx : Context α) (src dst : Key) : Asking (Route Formula) :=
  ExceptT.mk (Router.request ctx.registry src dst)

variable [Ground α]

/-- Converts data from one encoding to another. -/
def convert (ctx : Context α) (h : Held α) (src dst : Key) : Asking (Held α) := do
  let r ← ctx.route src dst
  ctx.settings.applyRoute r h

/-- Converts data to the canonical encoding of its own. -/
def toCanonical (ctx : Context α) (h : Held α) (k : Key) : Except Fault (Held α) := do
  ctx.settings.applyLink h (← ctx.registry.canonicalLink .toCanonical k)

/-- Converts data from the canonical encoding of the given one. -/
def fromCanonical (ctx : Context α) (h : Held α) (k : Key) : Except Fault (Held α) := do
  ctx.settings.applyLink h (← ctx.registry.canonicalLink .fromCanonical k)

end Context

end Attitude
