import Attitude.Coefficient
import Attitude.Proofs.Exact.Undefined

/-!
# Coefficient functions of real numbers

A coefficient is a series near zero and a quotient elsewhere. At zero the quotient is undefined, and
it is not chosen there. So `sinc` and `cosc` are defined everywhere, and `halfCosecant` wherever the
sine does not vanish and near zero.
-/

namespace Attitude.Coefficient

open Partial

/-- Which of series and closed form is taken, over real numbers. -/
theorem nearZero_eq_ite (x series closed : ℝ) :
    nearZero x series closed = if |x| < 1 / 1000 then series else closed := by
  simp only [nearZero, seriesBound, select_eq_ite, less_ne_zero, abs_eq, lit_one, Nat.cast_ofNat]

/-- The first coefficient over real numbers. -/
theorem sinc_eq (x : ℝ) : sinc x =
    if |x| < 1 / 1000 then 1 - x * x / 6 + x * x * (x * x) / 120 else Real.sin x / x := by
  simp only [sinc, nearZero_eq_ite, sq, lit_one, Nat.cast_ofNat, sin_eq]

/-- The second coefficient over real numbers. -/
theorem cosc_eq (x : ℝ) : cosc x =
    if |x| < 1 / 1000 then 1 / 2 - x * x / 24 + x * x * (x * x) / 720
    else (1 - Real.cos x) / (x * x) := by
  simp only [cosc, nearZero_eq_ite, sq, lit_one, Nat.cast_ofNat, cos_eq]

/-- The third coefficient over real numbers. -/
theorem halfCosecant_eq (x : ℝ) : halfCosecant x =
    if |x| < 1 / 1000 then 1 / 2 + x * x / 12 + 7 * (x * x * (x * x)) / 720
    else x / (2 * Real.sin x) := by
  simp only [halfCosecant, nearZero_eq_ite, sq, lit_one, Nat.cast_ofNat, sin_eq]

/-! ## Undefined quotients -/

/-- Which of series and closed form is taken, where either may be undefined. -/
theorem nearZero_value (x : ℝ) (series closed : Partial ℝ) :
    nearZero (value x) series closed = if |x| < 1 / 1000 then series else closed := by
  have hbound : (seriesBound : Partial ℝ) = value seriesBound := value_div_lit _ (by norm_num)
  rw [nearZero, hbound]
  refine (select_value (less |x| seriesBound) series closed).trans ?_
  simp only [less_ne_zero, seriesBound, lit_one, Nat.cast_ofNat]

/-- A coefficient is defined if its series is, and its quotient where that is chosen. -/
theorem nearZero_of_value {x series closed : ℝ} {quotient : Partial ℝ}
    (h : 1 / 1000 ≤ |x| → quotient = value closed) :
    nearZero (value x) (value series) quotient = value (nearZero x series closed) := by
  rw [nearZero_value, nearZero_eq_ite]
  split_ifs with hnear
  · rfl
  · exact h (not_lt.1 hnear)

/-- Away from zero divisions are by numbers other than zero. -/
theorem ne_zero_of_far {x : ℝ} (h : 1 / 1000 ≤ |x|) : x ≠ 0 := by
  rintro rfl
  norm_num at h

/-- The first coefficient is defined everywhere: at zero the quotient is not selected. -/
theorem sinc_value (x : ℝ) : sinc (value x) = value (sinc x) := by
  have hseries : (lit 1 - sq (value x) / lit 6 + sq (sq (value x)) / lit 120 : Partial ℝ) =
      value (lit 1 - sq x / lit 6 + sq (sq x) / lit 120) := by
    rw [sq_value, sq_value, value_div_lit _ (by norm_num), value_div_lit _ (by norm_num)]
    rfl
  rw [sinc, hseries]
  exact nearZero_of_value fun h => value_div (ne_zero_of_far h)

/-- The second coefficient is defined everywhere. -/
theorem cosc_value (x : ℝ) : cosc (value x) = value (cosc x) := by
  have hseries : (lit 1 / lit 2 - sq (value x) / lit 24 + sq (sq (value x)) / lit 720 : Partial ℝ) =
      value (lit 1 / lit 2 - sq x / lit 24 + sq (sq x) / lit 720) := by
    rw [sq_value, sq_value, value_div_lit _ (by norm_num), value_div_lit _ (by norm_num), lit_eq 1,
      value_div_lit _ (by norm_num)]
    rfl
  rw [cosc, hseries]
  exact nearZero_of_value fun h => value_div (mul_self_ne_zero.2 (ne_zero_of_far h))

/-- The third coefficient is defined where the sine does not vanish, and near zero anyway. -/
theorem halfCosecant_value {x : ℝ} (h : 1 / 1000 ≤ |x| → Real.sin x ≠ 0) :
    halfCosecant (value x) = value (halfCosecant x) := by
  have hseries : (lit 1 / lit 2 + sq (value x) / lit 12 + lit 7 * sq (sq (value x)) / lit 720 :
      Partial ℝ) = value (lit 1 / lit 2 + sq x / lit 12 + lit 7 * sq (sq x) / lit 720) := by
    rw [sq_value, sq_value, value_div_lit _ (by norm_num), lit_eq 7, value_mul,
      value_div_lit _ (by norm_num), lit_eq 1, value_div_lit _ (by norm_num)]
    rfl
  rw [halfCosecant, hseries]
  exact nearZero_of_value fun hfar =>
    value_div (mul_ne_zero (Nat.cast_ne_zero.2 two_ne_zero) (h hfar))

end Attitude.Coefficient
