import Attitude.Decimal.Rounding

/-!
# Numbers as short text

A double is written with six significant digits and without trailing zeros, positionally where its
power of ten lies between -4 and 5 and with an exponent of at least two digits elsewhere.
-/

namespace Attitude.Decimal

/-- How numbers are written as short text. -/
structure GeneralFormat where
  /-- The number of significant digits. -/
  digits : Nat
  /-- The lowest power of ten that is written positionally. -/
  lowest : Int
  /-- The least number of digits of an exponent. -/
  exponentDigits : Nat

/-- Six digits, positional from one ten-thousandth on, exponents of two digits. -/
def general : GeneralFormat := ⟨6, -4, 2⟩

namespace GeneralFormat

/-- Zeros in front of a text, up to a length. -/
def pad (n : Nat) (s : String) : String := String.ofList (List.replicate (n - s.length) '0') ++ s

/-- A whole number with a point before its last `places` digits. -/
def placePoint (c places : Nat) : String :=
  if places = 0 then toString c
  else toString (c / tenTo places) ++ "." ++ pad places (toString (c % tenTo places))

/-- The exponent with its letter and sign. -/
def exponentText (f : GeneralFormat) (e : Int) : String :=
  (if e < 0 then "e-" else "e+") ++ pad f.exponentDigits (toString e.natAbs)

/-- The magnitude of a positive fraction. -/
def magnitudeText (f : GeneralFormat) (r : Ratio) : String :=
  let e := r.exponentAbove ⟨1, 1⟩
  let last := e + 1 - f.digits
  let rounded := r.nearestMultiple last
  let e := if rounded = tenTo f.digits then e + 1 else e
  let (c, k) := Figure.strip f.digits rounded last
  if f.lowest ≤ e ∧ e < f.digits then
    if 0 ≤ k then toString (c * tenTo k.toNat) else placePoint c (-k).toNat
  else placePoint c (e - k).toNat ++ f.exponentText e

/-- The text of a double. -/
def text (f : GeneralFormat) (x : Float) : String :=
  match Binary.ofFloat? x with
  | none => if x.isNaN then "nan" else if x < 0 then "-inf" else "inf"
  | some b =>
    (if b.negative then "-" else "") ++
      if b.mantissa = 0 then "0" else f.magnitudeText b.magnitude

end GeneralFormat

end Attitude.Decimal
