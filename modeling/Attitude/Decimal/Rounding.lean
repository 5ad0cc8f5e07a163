import Attitude.Decimal.Binary

/-!
# Rounding to decimal places

Rounding is exact: a fraction is compared with the midpoint of its two neighbours in whole numbers,
and a tie goes to the even one.
-/

namespace Attitude.Decimal

/-- The whole number nearest to a fraction; a tie goes to the even one. -/
def roundDiv (num den : Nat) : Nat :=
  let q := num / den
  let r := num % den
  if 2 * r < den then q else if den < 2 * r then q + 1 else q + q % 2

namespace Ratio

/-- Whether `c · 10 ^ e ≤ r`. -/
def reaches (r c : Ratio) (e : Int) : Bool :=
  c.num * tenTo e.toNat * r.den ≤ r.num * c.den * tenTo (-e).toNat

/-- Raises `e` while `c · 10 ^ (e + 1)` still reaches no further than the fraction. -/
def climb (r c : Ratio) : Nat → Int → Int
  | 0, e => e
  | fuel + 1, e => if r.reaches c (e + 1) then climb r c fuel (e + 1) else e

/-- Lowers `e` until `c · 10 ^ e` reaches no further than the fraction. -/
def descend (r c : Ratio) : Nat → Int → Int
  | 0, e => e
  | fuel + 1, e => if r.reaches c e then e else descend r c fuel (e - 1)

/-- The exponent `e` of a positive fraction with `c · 10 ^ e ≤ r < c · 10 ^ (e + 1)`. The numbers of
bits of numerator and denominator bound the search. -/
def exponentAbove (r c : Ratio) : Int :=
  climb r c (r.num.log2 + c.den.log2 + 2) (descend r c (r.den.log2 + c.num.log2 + 2) 0)

/-- The nearest multiple of `10 ^ k`, as the number of times. -/
def nearestMultiple (r : Ratio) (k : Int) : Nat :=
  roundDiv (r.num * tenTo (-k).toNat) (r.den * tenTo k.toNat)

end Ratio

/-- A decimal number `± coefficient · 10 ^ exponent`. -/
structure Figure where
  negative : Bool
  coefficient : Nat
  exponent : Int
  deriving DecidableEq, Repr

namespace Figure

/-- Zero without a sign. -/
def zero : Figure := ⟨false, 0, 0⟩

/-- Moves trailing zeros of the coefficient into the exponent, at most `fuel` of them. -/
def strip : Nat → Nat → Int → Nat × Int
  | 0, c, e => (c, e)
  | fuel + 1, c, e => if c % 10 = 0 then strip fuel (c / 10) (e + 1) else (c, e)

/-- The same number with a coefficient that does not end in zero; zero loses its sign. -/
def normalize (f : Figure) : Figure :=
  if f.coefficient = 0 then zero
  else
    let (c, e) := strip (f.coefficient.log2 + 1) f.coefficient f.exponent
    ⟨f.negative, c, e⟩

/-- Whole numbers below this bound are written without a power of ten. -/
def exactBound : Nat := twoTo 53

/-- A text of the number with nothing but digits, a sign and a power of ten. Whole numbers below
`exactBound` are written out. -/
def render (f : Figure) : String :=
  let f := f.normalize
  let sign := if f.negative then "-" else ""
  if 0 ≤ f.exponent ∧ f.coefficient * tenTo f.exponent.toNat < exactBound then
    sign ++ toString (f.coefficient * tenTo f.exponent.toNat)
  else sign ++ toString f.coefficient ++ "e" ++ toString f.exponent

end Figure

end Attitude.Decimal
