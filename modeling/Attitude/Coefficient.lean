import Attitude.Scalar.Basic

/-!
# Coefficient functions of the exponential and the logarithm

Each of the three functions is a quotient whose numerator and denominator vanish together at zero.
Near zero it is replaced by the first three terms of its series.
-/

namespace Attitude.Coefficient

variable {α : Type} [Scalar α]

/-- The magnitude under which a series is used: one thousandth. -/
def seriesBound : α := lit 1 / lit 1000

/-- Chooses the series near zero and the closed form elsewhere. -/
def nearZero (x series closed : α) : α := select (less (FieldOps.abs x) seriesBound) series closed

/-- `sin x / x`. -/
def sinc (x : α) : α :=
  nearZero x (lit 1 - sq x / lit 6 + sq (sq x) / lit 120) (Scalar.sin x / x)

/-- `(1 - cos x) / x²`. -/
def cosc (x : α) : α :=
  nearZero x (lit 1 / lit 2 - sq x / lit 24 + sq (sq x) / lit 720) ((lit 1 - Scalar.cos x) / sq x)

/-- `x / (2 sin x)`, the factor of the logarithm. -/
def halfCosecant (x : α) : α :=
  nearZero x (lit 1 / lit 2 + sq x / lit 12 + lit 7 * sq (sq x) / lit 720)
    (x / (lit 2 * Scalar.sin x))

end Attitude.Coefficient
