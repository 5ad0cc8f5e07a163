import Attitude.Proofs.Exact.Real

/-!
# Undefined values

Exact numbers give a value to every quotient and every root, so they cannot tell a formula that
divides by zero from one that does not. `Partial K` has one value more, which is undefined: that of
a quotient by zero, of the root of a negative number, and of every operation on it. Conditions treat
it as doubles treat a value that is no number: no comparison with it holds, and a minimum or maximum
passes it over.

A choice drops the value that is not chosen, whether it is defined or not (`select_value`). So a
formula that comes to the same defined result on `Partial K` as on `K` does not depend on the
undefined values that appear in it.
-/

namespace Attitude

/-- An exact number, or no value. -/
inductive Partial (K : Type) where
  | value (x : K)
  | undefined
  deriving DecidableEq

namespace Partial

variable {K : Type}

/-- A function that is defined everywhere. -/
def lift (f : K → K) : Partial K → Partial K
  | value x => value (f x)
  | undefined => undefined

/-- A function of two arguments that is defined everywhere. -/
def lift₂ (f : K → K → K) : Partial K → Partial K → Partial K
  | value x, value y => value (f x y)
  | _, _ => undefined

/-- A function that is defined on a part of the numbers only. -/
def restrict (p : K → Prop) [DecidablePred p] (f : K → K) : Partial K → Partial K
  | value x => if p x then value (f x) else undefined
  | undefined => undefined

section Field

variable [Field K] [LinearOrder K]

/-- The quotient, which a zero divisor leaves undefined. -/
def div : Partial K → Partial K → Partial K
  | value x, value y => if y = 0 then undefined else value (x / y)
  | _, _ => undefined

/-- A comparison, which does not hold of a value that is undefined. -/
def compare (f : K → K → K) : Partial K → Partial K → Partial K
  | value x, value y => value (f x y)
  | _, _ => value 0

/-- The value that is picked out of two, or the other one where one is undefined. -/
def pick (f : K → K → K) : Partial K → Partial K → Partial K
  | value x, value y => value (f x y)
  | value x, undefined => value x
  | undefined, b => b

instance : FieldOps (Partial K) where
  natCast n := value n
  add := lift₂ (· + ·)
  sub := lift₂ (· - ·)
  mul := lift₂ (· * ·)
  neg := lift (- ·)
  div := div
  less := compare FieldOps.less
  atMost := compare FieldOps.atMost
  both c d := value (if c ≠ value 0 ∧ d ≠ value 0 then 1 else 0)
  keep c a := if c ≠ value 0 then a else value 0
  drop c a := if c ≠ value 0 then value 0 else a
  abs := lift FieldOps.abs
  min := pick FieldOps.min
  max := pick FieldOps.max

end Field

noncomputable instance : Scalar (Partial ℝ) where
  sqrt := restrict (0 ≤ ·) Scalar.sqrt
  log := restrict (0 < ·) Scalar.log
  sin := lift Scalar.sin
  cos := lift Scalar.cos
  asin := restrict (|·| ≤ 1) Scalar.asin
  atan := lift Scalar.atan
  atan2 := lift₂ Scalar.atan2

/-! ## Operations on defined values

An operation without a condition comes to the value that it has on numbers, by definition. -/

section Field

variable [Field K] [LinearOrder K] (x y c d : K) (a b : Partial K)

theorem lit_eq (n : Nat) : (lit n : Partial K) = value (lit n) := rfl
theorem value_mul : value x * value y = value (x * y) := rfl
theorem value_less : less (value x) (value y) = value (less x y) := rfl
theorem value_atMost : atMost (value x) (value y) = value (atMost x y) := rfl

variable {x y}

/-- A quotient is defined if the divisor is not zero. -/
theorem value_div (hy : y ≠ 0) : value x / value y = value (x / y) := if_neg hy
theorem value_div_zero : value x / value (0 : K) = undefined := if_pos rfl

/-- Two signs cancel in a quotient, whether it is defined or not. -/
theorem value_neg_div_value_neg : value (-x) / value (-y) = value x / value y := by
  by_cases hy : y = 0
  · rw [hy, neg_zero, value_div_zero, value_div_zero]
  · rw [value_div hy, value_div (neg_ne_zero.2 hy), neg_div_neg_eq]

/-- Quotients that agree where they are defined agree as numbers, since those by zero are zero. -/
theorem div_eq_of_value_div_eq {u v : K} (h : value x / value y = value u / value v) :
    x / y = u / v := by
  by_cases hy : y = 0 <;> by_cases hv : v = 0
  · rw [hy, hv, div_zero, div_zero]
  · rw [hy, value_div_zero, value_div hv] at h
    cases h
  · rw [hv, value_div_zero, value_div hy] at h
    cases h
  · rw [value_div hy, value_div hv] at h
    exact value.inj h

/-- Conjunction is defined for conditions that are. -/
theorem value_both : both (value c) (value d) = value (both c d) := by
  show value _ = value _
  simp only [ne_eq, value.injEq]
  rfl

/-- A choice by a condition that is defined is one of the two values, whatever the other one is. -/
theorem select_value : select (value c) a b = if c ≠ 0 then a else b := by
  have hzero_add : (value 0 : Partial K) + b = b := by
    cases b with
    | value y => exact congrArg value (zero_add y)
    | undefined => rfl
  have hadd_zero : a + (value 0 : Partial K) = a := by
    cases a with
    | value x => exact congrArg value (add_zero x)
    | undefined => rfl
  show (if value c ≠ value 0 then a else value 0) + (if value c ≠ value 0 then value 0 else b) = _
  simp only [ne_eq, value.injEq]
  by_cases h : c = 0
  · rw [if_neg (not_not.2 h), if_neg (not_not.2 h), if_neg (not_not.2 h), hzero_add]
  · rw [if_pos h, if_pos h, if_pos h, hadd_zero]

end Field

theorem sq_value (x : ℝ) : sq (value x) = value (sq x) := rfl

theorem value_div_lit (x : ℝ) {n : Nat} (hn : n ≠ 0) : value x / lit n = value (x / lit n) :=
  value_div (Nat.cast_ne_zero.2 hn)

/-- A root is defined if the radicand is not negative. -/
theorem sqrt_value {x : ℝ} (hx : 0 ≤ x) : Scalar.sqrt (value x) = value (Real.sqrt x) := if_pos hx

end Partial

/-! ## Vectors, quaternions and matrices of defined values -/

open Partial

variable {K : Type} [Field K] [LinearOrder K] (c k : K)

/-- A vector that is not selected does not matter, even if entries of it are undefined. -/
theorem Vec3.select_value (u v : Vec3 (Partial K)) :
    Vec3.select (value c) u v = if c ≠ 0 then u else v :=
  select_of_scalars (Partial.select_value c) u v

/-- A quaternion that is not selected does not matter, even if parts of it are undefined. -/
theorem Quaternion.select_value (p q : Quaternion (Partial K)) :
    Quaternion.select (value c) p q = if c ≠ 0 then p else q :=
  select_of_scalars (Partial.select_value c) p q

variable {k}

/-- A vector divided by a number other than zero. -/
theorem Vec3.sdiv_value (v : Vec3 K) (hk : k ≠ 0) :
    (v.map value).sdiv (value k) = (v.sdiv k).map value := by
  ext <;> exact value_div hk

/-- A matrix divided by a number other than zero. -/
theorem Mat3.sdiv_value (m : Mat3 K) (hk : k ≠ 0) :
    (m.map value).sdiv (value k) = (m.sdiv k).map value := by
  ext <;> exact value_div hk

/-- Selection between vectors that are defined. -/
theorem Vec3.select_map_value (u v : Vec3 K) :
    Vec3.select (value c) (u.map value) (v.map value) = (Vec3.select c u v).map value := by
  rw [Vec3.select_value, Vec3.select_eq_ite, apply_ite (Vec3.map value)]

/-- Selection between quaternions that are defined. -/
theorem Quaternion.select_map_value (p q : Quaternion K) :
    Quaternion.select (value c) (p.map value) (q.map value) =
      (Quaternion.select c p q).map value := by
  rw [Quaternion.select_value, Quaternion.select_eq_ite, apply_ite (Quaternion.map value)]

end Attitude
