/-!
# Doubles as exact numbers

A finite double is a whole number times a power of two. Here it is taken apart, so that decimal
digits are chosen by exact arithmetic on whole numbers.
-/

namespace Attitude.Decimal

/-- A power of two. -/
def twoTo (n : Nat) : Nat := Nat.pow 2 n

/-- A power of ten. -/
def tenTo (n : Nat) : Nat := Nat.pow 10 n

/-- A number `± mantissa · 2 ^ exponent`. -/
structure Binary where
  negative : Bool
  mantissa : Nat
  exponent : Int
  deriving DecidableEq, Repr

/-- A fraction of whole numbers. -/
structure Ratio where
  num : Nat
  den : Nat
  deriving DecidableEq, Repr

namespace Binary

/-- The parts of a finite double. -/
def ofFloat? (x : Float) : Option Binary :=
  let bits := x.toBits.toNat
  let fraction : Nat := bits % twoTo 52
  let biased : Nat := bits / twoTo 52 % twoTo 11
  let negative : Bool := bits / twoTo 63 == 1
  if biased = 2047 then none
  else if biased = 0 then some ⟨negative, fraction, -1074⟩
  else some ⟨negative, twoTo 52 + fraction, Int.ofNat biased - 1075⟩

/-- The magnitude as a fraction. -/
def magnitude (b : Binary) : Ratio :=
  ⟨b.mantissa * twoTo b.exponent.toNat, twoTo (-b.exponent).toNat⟩

end Binary

end Attitude.Decimal
