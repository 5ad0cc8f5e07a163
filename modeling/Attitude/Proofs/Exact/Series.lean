import Attitude.Proofs.Exact.Coefficient
import Mathlib.Analysis.SpecialFunctions.Trigonometric.Series
import Mathlib.Analysis.SpecificLimits.Normed
import Mathlib.Tactic.FieldSimp

/-!
# The series of the coefficient functions

Near zero a coefficient is the first three terms of a series in the square of its argument, and
elsewhere a quotient that has no value at zero. Three orders agree, so the error is a small multiple
of the sixth power, and the quotient tends to the value of the series at zero. The coefficient
completes the quotient (`Completes`).

The series of `sin x / x` and `(1 - cos x) / x²` have terms `nᵏ / (2k + m)!` with changing signs,
where `n` is `x²`. The terms fall, so the error is at most the first one that is left out. The
series of `x / (2 sin x)` has positive terms. Its error is taken from that of `sin x / x`, of which
it is half the reciprocal.
-/

namespace Attitude.Coefficient

open Filter Partial Topology
open scoped Nat

/-! ## Alternating series of falling terms -/

section Alternating

/-- The size of a term: `nᵏ / (2k + m)!`. -/
noncomputable def seriesTerm (m : ℕ) (n : ℝ) (k : ℕ) : ℝ := n ^ k / (2 * k + m)!

variable {m : ℕ} {n x l : ℝ}

/-- The terms decrease, up to a square of one. -/
theorem antitone_seriesTerm (hn : 0 ≤ n) (hsmall : n ≤ 1) : Antitone (seriesTerm m n) := by
  refine antitone_nat_of_succ_le fun k => ?_
  have hpower : n ^ (k + 1) ≤ n ^ k := pow_le_pow_of_le_one hn hsmall k.le_succ
  have hfactorial : (2 * k + m)! ≤ (2 * (k + 1) + m)! := Nat.factorial_le (by omega)
  exact div_le_div₀ (pow_nonneg hn k) hpower (Nat.cast_pos.2 (Nat.factorial_pos _))
    (Nat.cast_le.2 hfactorial)

/-- The terms are summable by comparison with the exponential series. -/
theorem summable_seriesTerm (hn : 0 ≤ n) : Summable (seriesTerm m n) := by
  refine (Real.summable_pow_div_factorial n).of_nonneg_of_le
    (fun k => div_nonneg (pow_nonneg hn k) (Nat.cast_nonneg _)) fun k => ?_
  have hfactorial : k ! ≤ (2 * k + m)! := Nat.factorial_le (by omega)
  exact div_le_div_of_nonneg_left (pow_nonneg hn k) (Nat.cast_pos.2 (Nat.factorial_pos k))
    (Nat.cast_le.2 hfactorial)

/-- The sum of the first three terms misses at most the fourth one. -/
theorem abs_three_terms_sub_le (hn : 0 ≤ n) (hsmall : n ≤ 1)
    (hsum : HasSum (fun k => (-1) ^ k * seriesTerm m n k) l) :
    |seriesTerm m n 0 - seriesTerm m n 1 + seriesTerm m n 2 - l| ≤ seriesTerm m n 3 := by
  have hthree : ∑ k ∈ Finset.range 3, (-1) ^ k * seriesTerm m n k =
      seriesTerm m n 0 - seriesTerm m n 1 + seriesTerm m n 2 := by
    simp only [Finset.sum_range_succ, Finset.sum_range_zero]
    ring
  have herror := alternating_series_error_bound (seriesTerm m n) (antitone_seriesTerm hn hsmall)
    (summable_seriesTerm hn) 3
  rwa [hsum.tsum_eq, hthree, abs_sub_comm] at herror

/-- The quotient of the sine as an alternating series in the square. -/
theorem hasSum_sin_div (hx : x ≠ 0) :
    HasSum (fun k => (-1) ^ k * seriesTerm 1 (x ^ 2) k) (Real.sin x / x) := by
  refine ((Real.hasSum_sin x).div_const x).congr_fun fun k => ?_
  rw [seriesTerm, ← pow_mul, pow_succ]
  field_simp

/-- The quotient of the cosine as an alternating series. Its first term cancels against the one it
is subtracted from. -/
theorem hasSum_one_sub_cos_div (hx : x ≠ 0) :
    HasSum (fun k => (-1) ^ k * seriesTerm 2 (x ^ 2) k) ((1 - Real.cos x) / x ^ 2) := by
  -- without its first term the series of the cosine sums to the negative of the numerator
  have htail : HasSum (fun k => (-1) ^ (k + 1) * x ^ (2 * (k + 1)) / (2 * (k + 1))!)
      (Real.cos x - 1) := by
    simpa using (hasSum_nat_add_iff' 1).2 (Real.hasSum_cos x)
  have hquotient : (1 - Real.cos x) / x ^ 2 = (Real.cos x - 1) / -x ^ 2 := by
    rw [div_neg, ← neg_div, neg_sub]
  rw [hquotient]
  refine (htail.div_const (-x ^ 2)).congr_fun fun k => ?_
  rw [seriesTerm, ← pow_mul, mul_add_one 2 k, pow_succ, pow_add]
  field_simp

end Alternating

/-! ## Errors -/

section Error

variable {x : ℝ}

/-- Three terms of the sine are off by at most the fourth. -/
theorem abs_sinSeries_sub_le (hx : x ≠ 0) (hsmall : x ^ 2 ≤ 1) :
    |1 - x ^ 2 / 6 + x ^ 4 / 120 - Real.sin x / x| ≤ x ^ 6 / 5040 := by
  have h := abs_three_terms_sub_le (sq_nonneg x) hsmall (hasSum_sin_div hx)
  simpa [seriesTerm, Nat.factorial, ← pow_mul] using h

/-- Three terms of the cosine are off by at most the fourth. -/
theorem abs_cosSeries_sub_le (hx : x ≠ 0) (hsmall : x ^ 2 ≤ 1) :
    |1 / 2 - x ^ 2 / 24 + x ^ 4 / 720 - (1 - Real.cos x) / x ^ 2| ≤ x ^ 6 / 40320 := by
  have h := abs_three_terms_sub_le (sq_nonneg x) hsmall (hasSum_one_sub_cos_div hx)
  simpa [seriesTerm, Nat.factorial, ← pow_mul] using h

/-! ### The reciprocal

The series of half the reciprocal of `s` is multiplied by twice `s`. Below the third power of `n`
only one is left, and the sign of the third power decides. -/

section Reciprocal

variable {n s : ℝ}

/-- The series of the reciprocal is no larger than the reciprocal: multiplied with the series of the
sine it gives one less a term of third order. -/
theorem reciprocalSeries_mul_le_one (hn : 0 ≤ n) (hsmall : n ≤ 1 / 2)
    (hs : s ≤ 1 - n / 6 + n ^ 2 / 120 + n ^ 3 / 5040) :
    (1 / 2 + n / 12 + 7 * n ^ 2 / 720) * (2 * s) ≤ 1 := by
  have hrest : 0 ≤ n ^ 3 * (5 / 3024 - 59 / 302400 * n - n ^ 2 / 259200) :=
    mul_nonneg (pow_nonneg hn 3) (by nlinarith)
  calc (1 / 2 + n / 12 + 7 * n ^ 2 / 720) * (2 * s)
      ≤ (1 / 2 + n / 12 + 7 * n ^ 2 / 720) *
          (2 * (1 - n / 6 + n ^ 2 / 120 + n ^ 3 / 5040)) := by gcongr
    _ = 1 - n ^ 3 * (5 / 3024 - 59 / 302400 * n - n ^ 2 / 259200) := by ring
    _ ≤ 1 := sub_le_self 1 hrest

/-- With one more term, rounded up, the series is no smaller than the reciprocal. -/
theorem one_le_reciprocalSeries_mul (hn : 0 ≤ n) (hsmall : n ≤ 1 / 2)
    (hs : 1 - n / 6 + n ^ 2 / 120 - n ^ 3 / 5040 ≤ s) :
    1 ≤ (1 / 2 + n / 12 + 7 * n ^ 2 / 720 + n ^ 3 / 900) * (2 * s) := by
  have hsquare : 0 ≤ n ^ 2 * (19 / 1296000 - n / 2268000) :=
    mul_nonneg (sq_nonneg n) (by linarith)
  have hrest : 0 ≤ n ^ 3 *
      (13 / 75600 - 73 / 302400 * n + n ^ 2 * (19 / 1296000 - n / 2268000)) :=
    mul_nonneg (pow_nonneg hn 3) (by linarith)
  calc 1
      ≤ 1 + n ^ 3 *
          (13 / 75600 - 73 / 302400 * n + n ^ 2 * (19 / 1296000 - n / 2268000)) :=
        le_add_of_nonneg_right hrest
    _ = (1 / 2 + n / 12 + 7 * n ^ 2 / 720 + n ^ 3 / 900) *
          (2 * (1 - n / 6 + n ^ 2 / 120 - n ^ 3 / 5040)) := by ring
    _ ≤ (1 / 2 + n / 12 + 7 * n ^ 2 / 720 + n ^ 3 / 900) * (2 * s) := by gcongr

/-- The series of half the reciprocal has the error of that of `s`, up to a factor. -/
theorem abs_reciprocalSeries_sub_le (hn : 0 ≤ n) (hsmall : n ≤ 1 / 2)
    (hs : |1 - n / 6 + n ^ 2 / 120 - s| ≤ n ^ 3 / 5040) :
    |1 / 2 + n / 12 + 7 * n ^ 2 / 720 - 1 / (2 * s)| ≤ n ^ 3 / 900 := by
  obtain ⟨hhigh, hlow⟩ := abs_le.1 hs
  have hcube : 0 ≤ n ^ 3 := pow_nonneg hn 3
  have hpos : 0 < 2 * s := by nlinarith
  have hle := (le_div_iff₀ hpos).2 (reciprocalSeries_mul_le_one hn hsmall (by linarith))
  have hge := (div_le_iff₀ hpos).2 (one_le_reciprocalSeries_mul hn hsmall (by linarith))
  exact abs_le.2 ⟨by linarith, by linarith⟩

end Reciprocal

/-- The remainder of the third coefficient, from those of the sine. -/
theorem abs_cosecantSeries_sub_le (hx : x ≠ 0) (hsmall : x ^ 2 ≤ 1 / 2) :
    |1 / 2 + x ^ 2 / 12 + 7 * x ^ 4 / 720 - x / (2 * Real.sin x)| ≤ x ^ 6 / 900 := by
  have hreciprocal : x / (2 * Real.sin x) = 1 / (2 * (Real.sin x / x)) := by
    rw [mul_div_assoc', one_div_div]
  have hsine : |1 - x ^ 2 / 6 + (x ^ 2) ^ 2 / 120 - Real.sin x / x| ≤ (x ^ 2) ^ 3 / 5040 := by
    simpa only [← pow_mul] using abs_sinSeries_sub_le hx (hsmall.trans (by norm_num))
  rw [hreciprocal]
  simpa only [← pow_mul] using abs_reciprocalSeries_sub_le (sq_nonneg x) hsmall hsine

end Error

/-! ## Completed quotients -/

/-- The function `f` completes the quotient of `num` and `den`, which has a limit at zero but no
value: it is the quotient from one thousandth on, and nearer to zero it comes within the sixth power
by `c` of the quotient and takes the limit. -/
structure Completes (f : {α : Type} → [Scalar α] → α → α) (num den : ℝ → ℝ) (limit c : ℝ) :
    Prop where
  error_le (x : ℝ) : 0 < |x| → |x| < 1 / 1000 → |f x - num x / den x| ≤ x ^ 6 / c
  zero_eq : f (0 : ℝ) = limit
  tendsto_quotient : Tendsto (fun x => num x / den x) (𝓝[≠] 0) (𝓝 limit)
  even (x : ℝ) : f (-x) = f x
  even_partial (a : Partial ℝ) : f (-a) = f a
  /-- The quotient, undefined where the denominator vanishes, reaches the result only where it is
  chosen. -/
  value_eq (x : ℝ) :
    f (value x) = if |x| < 1 / 1000 then value (f x) else value (num x) / value (den x)

section Completion

variable {f : {α : Type} → [Scalar α] → α → α} {series num den : ℝ → ℝ} {limit c : ℝ}

/-- A quotient has the limit that its series has, if the error vanishes. -/
theorem tendsto_of_abs_sub_le (hcontinuous : Continuous series)
    (herror : ∀ x, x ≠ 0 → |x| < 1 / 1000 → |series x - num x / den x| ≤ x ^ 6 / c) :
    Tendsto (fun x => num x / den x) (𝓝[≠] 0) (𝓝 (series 0)) := by
  have hseries : Tendsto series (𝓝[≠] 0) (𝓝 (series 0)) :=
    hcontinuous.continuousAt.mono_left nhdsWithin_le_nhds
  have hbound : Tendsto (fun x : ℝ => x ^ 6 / c) (𝓝[≠] 0) (𝓝 0) :=
    (Continuous.tendsto' (by fun_prop) 0 0 (by simp)).mono_left nhdsWithin_le_nhds
  have hnear : ∀ᶠ x in 𝓝[≠] (0 : ℝ), |series x - num x / den x| ≤ x ^ 6 / c := by
    have hball : Metric.ball (0 : ℝ) (1 / 1000) ∈ 𝓝 0 := Metric.ball_mem_nhds 0 (by norm_num)
    filter_upwards [self_mem_nhdsWithin, mem_nhdsWithin_of_mem_nhds hball] with x hne hx
    exact herror x hne (by rwa [Metric.mem_ball, Real.dist_0_eq_abs] at hx)
  simpa using hseries.sub (squeeze_zero_norm' hnear hbound)

/-- A function completes a quotient if it chooses between that and a series, both of them even. -/
theorem completes_of_series
    (hchoice : ∀ x : ℝ, f x = if |x| < 1 / 1000 then series x else num x / den x)
    (hnear : ∀ x : ℝ, |x| < 1 / 1000 → f (value x) = value (f x))
    (hfar : ∀ x : ℝ, 1 / 1000 ≤ |x| → f (value x) = value (num x) / value (den x))
    (hcontinuous : Continuous series)
    (herror : ∀ x, x ≠ 0 → |x| < 1 / 1000 → |series x - num x / den x| ≤ x ^ 6 / c)
    (hlimit : series 0 = limit) (hseries : ∀ x, series (-x) = series x)
    (hquotient : ∀ x, value (num (-x)) / value (den (-x)) = value (num x) / value (den x)) :
    Completes f num den limit c := by
  -- the closed form is not selected near zero, so that it may be undefined there
  have hvalue (x : ℝ) :
      f (value x) = if |x| < 1 / 1000 then value (f x) else value (num x) / value (den x) := by
    split_ifs with h
    · exact hnear x h
    · exact hfar x (not_lt.1 h)
  have heven (x : ℝ) : f (-x) = f x := by
    rw [hchoice, hchoice, abs_neg, hseries, div_eq_of_value_div_eq (hquotient x)]
  -- an undefined argument is selected by no condition, and stays undefined
  have hpartial (a : Partial ℝ) : f (-a) = f a := by
    cases a with
    | value x =>
      show f (value (-x)) = f (value x)
      rw [hvalue, hvalue, abs_neg, heven, hquotient]
    | undefined => rfl
  exact {
    error_le := fun x hx hsmall => by
      rw [hchoice, if_pos hsmall]
      exact herror x (abs_pos.1 hx) hsmall
    zero_eq := by rw [hchoice, if_pos (by norm_num), hlimit]
    tendsto_quotient := hlimit ▸ tendsto_of_abs_sub_le hcontinuous herror
    even := heven
    even_partial := hpartial
    value_eq := hvalue }

end Completion

/-! ## The three coefficients -/

/-- Near zero is well within the bounds above. -/
theorem sq_le_half_of_near {x : ℝ} (h : |x| < 1 / 1000) : x ^ 2 ≤ 1 / 2 := by
  rw [← sq_abs]
  nlinarith [abs_nonneg x]

/-- The first coefficient completes `sin x / x`. -/
theorem completes_sinc : Completes @sinc Real.sin (fun x => x) 1 5040 := by
  have hchoice (x : ℝ) : sinc x =
      if |x| < 1 / 1000 then 1 - x ^ 2 / 6 + x ^ 4 / 120 else Real.sin x / x := by
    rw [sinc_eq]
    congr 1
    ring
  have hfar (x : ℝ) (h : 1 / 1000 ≤ |x|) : sinc (value x) = value (Real.sin x) / value x := by
    rw [sinc, nearZero_value, if_neg h.not_gt]
    rfl
  have herror (x : ℝ) (hx : x ≠ 0) (h : |x| < 1 / 1000) :
      |1 - x ^ 2 / 6 + x ^ 4 / 120 - Real.sin x / x| ≤ x ^ 6 / 5040 :=
    abs_sinSeries_sub_le hx ((sq_le_half_of_near h).trans (by norm_num))
  exact completes_of_series hchoice (fun x _ => sinc_value x) hfar (by fun_prop) herror
    (by norm_num) (fun x => by ring) fun x => by rw [Real.sin_neg, value_neg_div_value_neg]

/-- The second coefficient completes `(1 - cos x) / x²`. -/
theorem completes_cosc :
    Completes @cosc (fun x => 1 - Real.cos x) (fun x => x ^ 2) (1 / 2) 40320 := by
  -- squares of squares as fourth powers
  have hchoice (x : ℝ) : cosc x =
      if |x| < 1 / 1000 then 1 / 2 - x ^ 2 / 24 + x ^ 4 / 720 else (1 - Real.cos x) / x ^ 2 := by
    rw [cosc_eq, ← pow_two]
    congr 1
    ring
  have hfar (x : ℝ) (h : 1 / 1000 ≤ |x|) :
      cosc (value x) = value (1 - Real.cos x) / value (x ^ 2) := by
    rw [cosc, nearZero_value, if_neg h.not_gt, sq_value, lit_eq, lit_one, sq, pow_two]
    rfl
  have herror (x : ℝ) (hx : x ≠ 0) (h : |x| < 1 / 1000) :
      |1 / 2 - x ^ 2 / 24 + x ^ 4 / 720 - (1 - Real.cos x) / x ^ 2| ≤ x ^ 6 / 40320 :=
    abs_cosSeries_sub_le hx ((sq_le_half_of_near h).trans (by norm_num))
  exact completes_of_series hchoice (fun x _ => cosc_value x) hfar (by fun_prop) herror
    (by norm_num) (fun x => by ring) fun x => by rw [Real.cos_neg, neg_sq]

/-- The third coefficient completes `x / (2 sin x)`. -/
theorem completes_halfCosecant :
    Completes @halfCosecant (fun x => x) (fun x => 2 * Real.sin x) (1 / 2) 900 := by
  have hchoice (x : ℝ) : halfCosecant x =
      if |x| < 1 / 1000 then 1 / 2 + x ^ 2 / 12 + 7 * x ^ 4 / 720 else x / (2 * Real.sin x) := by
    rw [halfCosecant_eq]
    congr 1
    ring
  have hnear (x : ℝ) (h : |x| < 1 / 1000) : halfCosecant (value x) = value (halfCosecant x) :=
    halfCosecant_value fun hfar => absurd h hfar.not_gt
  have hfar (x : ℝ) (h : 1 / 1000 ≤ |x|) :
      halfCosecant (value x) = value x / value (2 * Real.sin x) := by
    rw [halfCosecant, nearZero_value, if_neg h.not_gt]
    have htwo : (lit 2 : ℝ) = 2 := Nat.cast_ofNat
    rw [← htwo]
    rfl
  have herror (x : ℝ) (hx : x ≠ 0) (h : |x| < 1 / 1000) :
      |1 / 2 + x ^ 2 / 12 + 7 * x ^ 4 / 720 - x / (2 * Real.sin x)| ≤ x ^ 6 / 900 :=
    abs_cosecantSeries_sub_le hx (sq_le_half_of_near h)
  exact completes_of_series hchoice hnear hfar (by fun_prop) herror (by norm_num)
    (fun x => by ring) fun x => by rw [Real.sin_neg, mul_neg, value_neg_div_value_neg]

/-- **The coefficients near zero.** Near zero the coefficients meet three orders of their quotients,
and at zero they are the limits of these: one, one half and one half. All three are even. A quotient
reaches a result only where it is chosen, so the undefined quotients at zero do not. -/
theorem coefficients_near_zero :
    Completes @sinc Real.sin (fun x => x) 1 5040 ∧
    Completes @cosc (fun x => 1 - Real.cos x) (fun x => x ^ 2) (1 / 2) 40320 ∧
    Completes @halfCosecant (fun x => x) (fun x => 2 * Real.sin x) (1 / 2) 900 :=
  ⟨completes_sinc, completes_cosc, completes_halfCosecant⟩

/-- A negative angle near zero, and zero itself, where the quotient of the first coefficient has no
value. -/
theorem coefficients_of_smallAngle :
    let x : ℝ := -(1 / 2000)
    0 < |x| ∧ |x| < 1 / 1000 ∧
      |sinc x - Real.sin x / x| ≤ x ^ 6 / 5040 ∧
      |cosc x - (1 - Real.cos x) / x ^ 2| ≤ x ^ 6 / 40320 ∧
      |halfCosecant x - x / (2 * Real.sin x)| ≤ x ^ 6 / 900 ∧
      value (Real.sin 0) / value 0 = undefined ∧ sinc (value 0) = value (1 : ℝ) ∧
      cosc (value 0) = value (1 / 2 : ℝ) ∧ halfCosecant (value 0) = value (1 / 2 : ℝ) := by
  intro x
  have hpos : 0 < |x| := abs_pos.2 (by norm_num [x])
  have hnear : |x| < 1 / 1000 := by
    rw [abs_neg, abs_of_pos (by norm_num)]
    norm_num
  have hzero : |(0 : ℝ)| < 1 / 1000 := by norm_num
  obtain ⟨hsinc, hcosc, hcosecant⟩ := coefficients_near_zero
  refine ⟨hpos, hnear, hsinc.error_le x hpos hnear, hcosc.error_le x hpos hnear,
    hcosecant.error_le x hpos hnear, value_div_zero, ?_, ?_, ?_⟩
  · rw [hsinc.value_eq, if_pos hzero, hsinc.zero_eq]
  · rw [hcosc.value_eq, if_pos hzero, hcosc.zero_eq]
  · rw [hcosecant.value_eq, if_pos hzero, hcosecant.zero_eq]

end Attitude.Coefficient
