import Attitude.Literal
import Attitude.Symbolic.Basic

/-!
# Arguments of steps

An argument of a step is data, a matrix in symbols, nothing at all, or a register. Data is read
before the step is taken, but a reading that failed is part of the argument: whether it matters is
for the step to say.
-/

namespace Attitude

/-- An argument of a step. -/
inductive Argument (α : Type) where
  /-- Data as it was read. -/
  | data (x : Except Fault (Grid α))
  /-- Nothing, with the data that nothing counts as. -/
  | gap (x : Grid α)
  /-- A matrix of expressions in symbols. -/
  | symbols (x : Except Fault (Grid (Expr String α)))
  /-- The object that a register names. -/
  | register (r : String)

namespace Argument

/-- A literal as data. A gap is nothing, and counts as a matrix without a number in it. -/
def ofLiteral : Literal → Argument Float
  | .gap => gap (Grid.single Double.notANumber)
  | x => data x.toNumbers

/-- One entry of a matrix in symbols: a text is a symbol, and anything else a constant. -/
def symbolOrConstant : Literal → Except Fault (Expr String Float)
  | .text s => .ok (.var s)
  | x => x.toFloat.map .const

/-- A literal as a matrix in symbols. -/
def symbolic (x : Literal) : Argument Float := symbols (x.toGrid (.const 0) symbolOrConstant)

end Argument

end Attitude
