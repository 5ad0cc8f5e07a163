import Attitude.Decimal.Rounding
import Attitude.Grid

/-!
# Numbers in a report

A report rounds numbers so that the last bits of a computation do not show. All entries of a matrix
are rounded to the same decimal place, which follows from the largest of them; entries that are tiny
in absolute terms are written as zero. An entrywise report rounds every entry by its own magnitude.
-/

namespace Attitude.Report

open Decimal

/-- How numbers are rounded. -/
structure Precision where
  digits : Int := 10
  entrywise : Bool := false
  deriving DecidableEq, Repr

/-- A number as a report writes it. -/
inductive Entry where
  | figure (f : Figure)
  | infinite (negative : Bool)
  | notANumber
  deriving DecidableEq, Repr

/-- Magnitudes under this bound are written as zero in a report of whole matrices. -/
def tiny : Float := 1e-13

/-- The first digits of the magnitude at which the rounded place moves on: 4.3. -/
def turn : Ratio := ⟨43, 10⟩

/-- The decimal place to which numbers of a magnitude are rounded, as a power of ten. -/
def place (digits : Int) (largest : Ratio) : Int := largest.exponentAbove turn + 1 - digits

/-- Whether one fraction is below another. -/
def below (a b : Ratio) : Bool := a.num * b.den < b.num * a.den

/-- The largest magnitude of the finite numbers among some. -/
def largest (xs : List Float) : Ratio :=
  (xs.filterMap Binary.ofFloat?).foldl
    (fun m b => if below m b.magnitude then b.magnitude else m) ⟨0, 1⟩

/-- A number rounded to the place that belongs to the largest magnitude. -/
def entry (digits : Int) (largest : Ratio) (x : Float) : Entry :=
  match Binary.ofFloat? x with
  | none => if x.isNaN then .notANumber else .infinite (x < 0)
  | some b =>
    if largest.num = 0 then .figure .zero
    else
      let k := place digits largest
      .figure (Figure.normalize ⟨b.negative, b.magnitude.nearestMultiple k, k⟩)

/-- The report of a matrix. -/
def ofGrid (p : Precision) (m : Grid Float) : Grid Entry :=
  if p.entrywise then m.map fun x => entry p.digits (largest [x]) x
  else
    let m := m.map fun x => if x.abs < tiny then 0 else x
    m.map (entry p.digits (largest m.toList))

/-- The digits that tell every double apart. -/
def exactDigits : Int := 17

/-- The report of a number with all the digits that it needs. -/
def exact (x : Float) : Entry := entry exactDigits (largest [x]) x

end Attitude.Report
