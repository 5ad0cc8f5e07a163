import Attitude.Proofs.Exact.Field
import Attitude.Proofs.Scalar.Differences
import Mathlib.Analysis.SpecialFunctions.Complex.Arg
import Mathlib.Analysis.SpecialFunctions.Trigonometric.Arctan

/-!
# Exact real arithmetic

The real numbers as scalars. The angle of a point is the argument of a complex number, in the
half-open turn around zero; the angle of the origin is zero.
-/

namespace Attitude

noncomputable instance : Ground ℝ where
  sqrt := Real.sqrt
  log := Real.log
  sin := Real.sin
  cos := Real.cos
  asin := Real.arcsin
  atan := Real.arctan
  atan2 y x := Complex.arg ⟨x, y⟩
  holds c := decide (c ≠ 0)
  exp := Real.exp

variable (a b : ℝ)

theorem sqrt_eq : Scalar.sqrt a = Real.sqrt a := rfl
theorem sin_eq : Scalar.sin a = Real.sin a := rfl
theorem cos_eq : Scalar.cos a = Real.cos a := rfl

/-- Comparisons of real numbers have the truth value they should have. -/
theorem Ground.lt_iff : Ground.lt a b = true ↔ a < b :=
  decide_eq_true_iff.trans (less_ne_zero a b)

/-- The comparison that allows equality. -/
theorem Ground.le_iff : Ground.le a b = true ↔ a ≤ b :=
  decide_eq_true_iff.trans (atMost_ne_zero a b)

theorem Ground.same_iff : Ground.same a b = true ↔ a = b := by
  rw [Ground.same, Bool.and_eq_true, Ground.le_iff, Ground.le_iff]
  exact le_antisymm_iff.symm

/-- All real numbers are equal to themselves, so none is a nan. -/
theorem Ground.isNumber_real : Ground.isNumber a = true :=
  (Ground.le_iff a a).2 le_rfl

/-- Zero has no sign that could be lost. -/
theorem Ground.plain_real : Ground.plain a = a := by
  rw [Ground.plain, lit_zero]
  split
  · next h => exact ((Ground.same_iff a 0).1 h).symm
  · rfl

/-- Opposite differences cancel, and no rounding comes in between. -/
theorem cancel_sub_real : Cancel (a - b) (b - a) := by
  intro tol htol _
  have hsum : a - b + (b - a) = 0 := by ring
  have hnonneg : 0 ≤ tol := by rwa [Ground.le_iff, lit_zero] at htol
  rw [Bool.eq_false_iff, ne_eq, Ground.lt_iff, abs_eq, hsum, abs_zero]
  exact not_lt.2 hnonneg

instance : LawfulDifferences ℝ where
  cancel_sub := cancel_sub_real
  cancel_plain_sub a b := by
    rw [Ground.plain_real, Ground.plain_real]
    exact cancel_sub_real a b

end Attitude
