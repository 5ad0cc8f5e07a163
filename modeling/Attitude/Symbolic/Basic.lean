import Attitude.Grid
import Attitude.Symbolic.Expr
import Attitude.Symbolic.Reading

/-!
# Symbolic matrices

A symbolic matrix is a matrix of expressions in named symbols. A formula uses each entry of its
argument many times, so writing the expressions out after a few formulas would take more room than
there is. Instead a formula is run once on variables that stand for the entries of its argument, and
the result is kept together with the argument: the entries are shared by name.

A matrix that has been put into a store carries a stamp. The stamp tells it apart from every other
one and knows which of its entries are constants, so that nobody has to look into it again.

`Symbolic.eval` gives a symbolic matrix its value in any kind of scalar, operation by operation.
-/

namespace Attitude

/-- A position in one of the two arguments of a formula. -/
abbrev Slot := (Nat × Nat) ⊕ (Nat × Nat)

/-- What is remembered of a stored matrix. -/
structure Stamp (α : Type) where
  /-- The number that tells the matrix apart from every other one. -/
  label : Nat
  /-- The entries, read without a value for any symbol. -/
  reading : Grid (Reading α)

/-- A symbolic matrix with constants in `α`. -/
inductive Symbolic (α : Type) where
  /-- Expressions in symbols. -/
  | entries (m : Grid (Expr String α))
  /-- Expressions in the positions of another symbolic matrix. -/
  | derived (body : Grid (Expr (Nat × Nat) α)) (source : Symbolic α)
  /-- Expressions in the positions of two other symbolic matrices. -/
  | derived₂ (body : Grid (Expr Slot α)) (left right : Symbolic α)
  /-- A matrix that has been put into a store. -/
  | stored (stamp : Stamp α) (s : Symbolic α)

namespace Symbolic

variable {α β : Type}

/-- The matrix of the given numbers. -/
def ofNumbers (m : Grid α) : Symbolic α := entries (m.map .const)

/-- The number of rows. -/
def rows : Symbolic α → Nat
  | entries m => m.rows
  | derived body _ => body.rows
  | derived₂ body _ _ => body.rows
  | stored _ s => s.rows

/-- The number of columns. -/
def cols : Symbolic α → Nat
  | entries m => m.cols
  | derived body _ => body.cols
  | derived₂ body _ _ => body.cols
  | stored _ s => s.cols

/-- The matrix of variables that stand for the entries. -/
def slots (s : Symbolic α) : Grid (Expr (Nat × Nat) α) :=
  Grid.ofFn s.rows s.cols fun i j => .var (i.val, j.val)

/-- The value at a position of a matrix, zero outside of it. -/
def lookup [NatCast β] (m : Grid β) (p : Nat × Nat) : β := (m.get? p.1 p.2).getD (lit 0)

/-- The value of a symbolic matrix, given the values of its constants and of its symbols. -/
def eval [Scalar β] (constant : α → β) (symbols : String → β) : Symbolic α → Grid β
  | entries m => m.map (Expr.eval constant symbols)
  | derived body source =>
    let known := source.eval constant symbols
    body.map (Expr.eval constant (lookup known))
  | derived₂ body left right =>
    let knownLeft := left.eval constant symbols
    let knownRight := right.eval constant symbols
    body.map (Expr.eval constant (Sum.elim (lookup knownLeft) (lookup knownRight)))
  | stored _ s => s.eval constant symbols

section Ground

variable [Ground α]

/-- The entries, read without a value for any symbol. What a stamp knows is not read again. -/
def reading : Symbolic α → Grid (Reading α)
  | entries m => m.map (Expr.eval Reading.ofConstant fun _ => .unknown)
  | derived body source =>
    let known := source.reading
    body.map (Expr.eval Reading.ofConstant (lookup known))
  | derived₂ body left right =>
    let knownLeft := left.reading
    let knownRight := right.reading
    body.map (Expr.eval Reading.ofConstant (Sum.elim (lookup knownLeft) (lookup knownRight)))
  | stored stamp _ => stamp.reading

/-- The numbers of a matrix whose entries are all constants. -/
def numbers? (s : Symbolic α) : Option (Grid α) :=
  let m := s.reading
  if m.all (·.constant?.isSome) then some (m.map fun r => r.constant?.getD (lit 0)) else none

/-- The matrix with a stamp of the given label. Expressions in symbols need none, and a stamp that
is there already stays. -/
def stamp (label : Nat) : Symbolic α → Symbolic α
  | entries m => entries m
  | stored stamp s => stored stamp s
  | s => stored ⟨label, s.reading⟩ s

@[simp]
theorem eval_stamp [Scalar β] (label : Nat) (s : Symbolic α) (constant : α → β)
    (symbols : String → β) : (s.stamp label).eval constant symbols = s.eval constant symbols := by
  cases s <;> rfl

end Ground

end Symbolic

end Attitude
