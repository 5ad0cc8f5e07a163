import Attitude.Scalar.Basic

/-!
# Readings of expressions

An expression can be read before all of its symbols have values. An operation on constants is
carried out when the expression is made, so its result is a constant as well, and a zero among
constants has no sign. Everything else waits for the values of symbols.

A reading is a scalar, so every formula can be run on readings. Running one shows which results are
constants, which follow from symbols that have values, and which are unknown.
-/

namespace Attitude

/-- What is read off an expression. -/
inductive Reading (α : Type) where
  /-- The value follows from constants alone. -/
  | constant (a : α)
  /-- The value follows from constants and from symbols that have values. -/
  | computed (a : α)
  /-- The value depends on a symbol that has none. -/
  | unknown
  deriving Repr

namespace Reading

variable {α : Type}

/-- The value, if there is one. -/
def value? : Reading α → Option α
  | constant a | computed a => some a
  | unknown => none

/-- The value of a constant. -/
def constant? : Reading α → Option α
  | constant a => some a
  | computed _ | unknown => none

/-- The reading of a symbol that has the given value or none. -/
def ofSymbol : Option α → Reading α
  | some a => computed a
  | none => unknown

variable [Ground α]

/-- The reading of a constant. -/
def ofConstant (a : α) : Reading α := constant (Ground.plain a)

/-- The reading of the result of an operation of one argument. -/
def map (f : α → α) : Reading α → Reading α
  | constant a => ofConstant (f a)
  | computed a => computed (f a)
  | unknown => unknown

/-- The reading of the result of an operation of two arguments. -/
def map₂ (f : α → α → α) : Reading α → Reading α → Reading α
  | constant a, constant b => ofConstant (f a b)
  | constant a, computed b | computed a, constant b | computed a, computed b => computed (f a b)
  | unknown, _ | _, unknown => unknown

instance : Scalar (Reading α) where
  natCast n := constant (n : α)
  add := map₂ (· + ·)
  sub := map₂ (· - ·)
  mul := map₂ (· * ·)
  neg := map (- ·)
  div := map₂ (· / ·)
  less := map₂ less
  atMost := map₂ atMost
  both := map₂ both
  keep := map₂ FieldOps.keep
  drop := map₂ FieldOps.drop
  abs := map FieldOps.abs
  min := map₂ FieldOps.min
  max := map₂ FieldOps.max
  sqrt := map Scalar.sqrt
  log := map Scalar.log
  sin := map Scalar.sin
  cos := map Scalar.cos
  asin := map Scalar.asin
  atan := map Scalar.atan
  atan2 := map₂ Scalar.atan2

end Reading

end Attitude
