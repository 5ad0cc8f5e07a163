import Attitude.Conversion
import Attitude.Literal

/-!
# Calling a formula

A formula can be called on numbers directly, or by way of symbols: it is applied to a matrix of
symbols for each argument, and the expressions that result are evaluated at the numbers.
-/

namespace Attitude

section Ground

variable {α : Type} [Ground α]

/-- The result of a formula at some numbers. -/
def Formula.call (eps : α) (f : Formula) (args : List (Grid α)) : Except Fault (Grid α) :=
  f.apply eps args

/-- A matrix of symbols, each named by the argument it belongs to and its position there. -/
def symbolsFor (argument : Nat) (m : Grid α) : Grid (Expr (Nat × Nat × Nat) α) :=
  m.positions.map fun p => .var (argument, p)

/-- The result of a formula at some numbers, by way of symbols. -/
def Formula.callBySymbols (eps : α) (f : Formula) (args : List (Grid α)) :
    Except Fault (Grid α) := do
  let value (v : Nat × Nat × Nat) : α :=
    ((args[v.1]?).bind fun m => m.get? v.2.1 v.2.2).getD (lit 0)
  let symbols := (List.range args.length).zipWith symbolsFor args
  let expressions ← f.apply (.const eps) symbols
  return expressions.map (Expr.eval id value)

end Ground

/-- A request for the value of a formula at arguments that are written down. -/
structure Call where
  formula : Formula
  args : List Literal
  /-- Whether the formula is applied to symbols first. -/
  bySymbols : Bool := false

/-- The value that a call asks for. The arguments are read before the formula is applied. -/
def Call.value (c : Call) : Except Fault (Grid Float) := do
  let args ← c.args.mapM Literal.toNumbers
  let eps := (Settings.initial : Settings Float).eps
  if c.bySymbols then c.formula.callBySymbols eps args else c.formula.call eps args

end Attitude
