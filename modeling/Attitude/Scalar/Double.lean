import Attitude.Scalar.Basic

/-!
# Double precision

The scalar operations of IEEE double precision. A comparison with a value that is no number does not
hold, and a minimum or maximum passes such a value over.
-/

namespace Attitude.Double

/-- One where the condition holds and zero elsewhere. -/
def indicator (c : Bool) : Float := if c then 1 else 0

/-- The smaller of two doubles; the other one where one is no number. -/
def min (a b : Float) : Float :=
  if a.isNaN then b else if b.isNaN then a else if a < b then a else b

/-- The larger of two doubles; the other one where one is no number. -/
def max (a b : Float) : Float :=
  if a.isNaN then b else if b.isNaN then a else if a < b then b else a

/-- The natural logarithm. What is no number has none. -/
def log (a : Float) : Float := if a.isNaN then a else a.log

/-- The exponential. What is no number has none. -/
def exp (a : Float) : Float := if a.isNaN then a else a.exp

instance : Ground Float where
  natCast := Float.ofNat
  less a b := indicator (a < b)
  atMost a b := indicator (a ≤ b)
  both a b := indicator (a != 0 && b != 0)
  keep c a := if c != 0 then a else 0
  drop c a := if c != 0 then 0 else a
  abs := Float.abs
  min := Double.min
  max := Double.max
  sqrt := Float.sqrt
  log := Double.log
  sin := Float.sin
  cos := Float.cos
  asin := Float.asin
  atan := Float.atan
  atan2 := Float.atan2
  holds c := c != 0
  exp := Double.exp

/-- The double that is no number. -/
def notANumber : Float := 0 / 0

/-- Positive infinity. -/
def infinity : Float := 1 / 0

end Attitude.Double
