/-!
# Scalars

The formulas of this library are written once and read over many kinds of number: machine floating
point, exact numbers, symbolic expressions, and the record of which inputs a result depends on. What
a formula may use is split by how much it asks for.

* `RingOps`: sums, products and whole numbers.
* `FieldOps`: quotients, minima, comparisons and the choice between two values.
* `Scalar`: square roots, logarithms and trigonometry.
* `Ground`: scalars whose conditions can be decided, so that a program can branch on them.

A comparison is itself a scalar, one where it holds and zero elsewhere, because a symbolic
comparison has no truth value yet. `select` chooses by such a condition.
-/

namespace Attitude

/-- Sums, differences, products and whole numbers. -/
class RingOps (α : Type) extends Add α, Sub α, Mul α, Neg α, NatCast α

/-- The whole number `n` as a scalar. -/
abbrev lit {α : Type} [NatCast α] (n : Nat) : α := (n : α)

/-- Quotients, comparisons and the pieces of a choice. Conditions are scalars: zero is false and
everything else is true. -/
class FieldOps (α : Type) extends RingOps α, Div α where
  /-- One where the first argument is smaller than the second, zero elsewhere. -/
  less : α → α → α
  /-- One where the first argument is at most the second, zero elsewhere. -/
  atMost : α → α → α
  /-- One where both conditions hold, zero elsewhere. -/
  both : α → α → α
  /-- `keep c a` is `a` where the condition `c` holds and zero elsewhere. -/
  keep : α → α → α
  /-- `drop c a` is zero where the condition `c` holds and `a` elsewhere. -/
  drop : α → α → α
  /-- The magnitude. -/
  abs : α → α
  /-- The smaller of two values; a value that is no number is passed over. -/
  min : α → α → α
  /-- The larger of two values; a value that is no number is passed over. -/
  max : α → α → α

/-- Square roots, natural logarithms and trigonometry, angles in radians. -/
class Scalar (α : Type) extends FieldOps α where
  sqrt : α → α
  log : α → α
  sin : α → α
  cos : α → α
  asin : α → α
  atan : α → α
  /-- `atan2 y x` is the angle of the point `(x, y)`, in the half-open turn around zero. -/
  atan2 : α → α → α

/-- Scalars whose conditions have a truth value. Only checks of data take exponentials, and they
work on such scalars. -/
class Ground (α : Type) extends Scalar α where
  /-- Whether a condition holds, that is, whether it differs from zero. -/
  holds : α → Bool
  /-- The exponential. -/
  exp : α → α

export FieldOps (less atMost both)

/-- `a` where the condition `c` holds and `b` elsewhere. Both values are computed and the one not
chosen is replaced by zero before the sum, so an undefined value that is not chosen has no effect.
-/
def select {α : Type} [FieldOps α] (c a b : α) : α := FieldOps.keep c a + FieldOps.drop c b

/-- The square of a scalar. -/
def sq {α : Type} [Mul α] (a : α) : α := a * a

namespace Ground

variable {α : Type} [Ground α]

/-- Decides `a < b`. -/
def lt (a b : α) : Bool := holds (less a b)

/-- Decides `a ≤ b`. -/
def le (a b : α) : Bool := holds (atMost a b)

/-- Decides whether two scalars are equal as numbers: each is at most the other. A value that is no
number is not equal to itself. -/
def same (a b : α) : Bool := le a b && le b a

/-- Whether a scalar is a number, that is, at most itself. -/
def isNumber (a : α) : Bool := le a a

/-- A scalar with the sign taken from a zero. -/
def plain (a : α) : α := if same a (lit 0) then lit 0 else a

end Ground

end Attitude
