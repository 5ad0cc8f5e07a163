import Attitude.Quaternion
import Mathlib.Algebra.Order.Field.Basic
import Mathlib.Algebra.Order.Group.Unbundled.Abs

/-!
# Exact scalars

The operations of a commutative ring and of an ordered field as scalar operations. A comparison is
one or zero here as everywhere, and a condition is anything that differs from zero, so `select` on a
comparison is a choice between two cases: the rules for it are what proofs use.
-/

namespace Attitude

-- `a + b` is the sum of the ring wherever there is one, and only then that of the scalars
attribute [instance (low)] RingOps.toAdd RingOps.toSub RingOps.toMul RingOps.toNeg RingOps.toNatCast
  FieldOps.toDiv

section Ring

variable {R : Type} [CommRing R]

instance : RingOps R where

theorem lit_zero : (lit 0 : R) = 0 := Nat.cast_zero
theorem lit_one : (lit 1 : R) = 1 := Nat.cast_one

end Ring

section Selection

variable {α : Type} [FieldOps α] {c : α} {P : Prop} [Decidable P]
  (h : ∀ x y : α, Attitude.select c x y = if P then x else y)
include h

/-- A condition that decides between scalars decides between vectors. -/
theorem Vec3.select_of_scalars (u v : Vec3 α) : Vec3.select c u v = if P then u else v := by
  by_cases hP : P
  · rw [if_pos hP]
    ext <;> exact (h _ _).trans (if_pos hP)
  · rw [if_neg hP]
    ext <;> exact (h _ _).trans (if_neg hP)

/-- A condition that decides between scalars decides between quaternions. -/
theorem Quaternion.select_of_scalars (p q : Quaternion α) :
    Quaternion.select c p q = if P then p else q := by
  by_cases hP : P
  · rw [if_pos hP]
    ext <;> exact (h _ _).trans (if_pos hP)
  · rw [if_neg hP]
    ext <;> exact (h _ _).trans (if_neg hP)

end Selection

section Field

variable {K : Type} [Field K] [LinearOrder K]

instance : FieldOps K where
  less a b := if a < b then 1 else 0
  atMost a b := if a ≤ b then 1 else 0
  both c d := if c ≠ 0 ∧ d ≠ 0 then 1 else 0
  keep c a := if c ≠ 0 then a else 0
  drop c a := if c ≠ 0 then 0 else a
  abs a := |a|
  min := min
  max := max

variable (a b c d x y : K)

theorem abs_eq : FieldOps.abs a = |a| := rfl

/-- A strict comparison holds if it answers a number other than zero. -/
theorem less_ne_zero : less a b ≠ 0 ↔ a < b := by
  show (if a < b then (1 : K) else 0) ≠ 0 ↔ a < b
  by_cases h : a < b <;> simp [h]

/-- A comparison holds if it answers a number other than zero. -/
theorem atMost_ne_zero : atMost a b ≠ 0 ↔ a ≤ b := by
  show (if a ≤ b then (1 : K) else 0) ≠ 0 ↔ a ≤ b
  by_cases h : a ≤ b <;> simp [h]

/-- Conjunction of conditions as numbers. -/
theorem both_ne_zero : both c d ≠ 0 ↔ c ≠ 0 ∧ d ≠ 0 := by
  show (if c ≠ 0 ∧ d ≠ 0 then (1 : K) else 0) ≠ 0 ↔ c ≠ 0 ∧ d ≠ 0
  by_cases h : c ≠ 0 ∧ d ≠ 0 <;> simp [h]

/-- Selection between numbers, as a case distinction on the condition. -/
theorem select_eq_ite : select c x y = if c ≠ 0 then x else y := by
  show (if c ≠ 0 then x else 0) + (if c ≠ 0 then 0 else y) = _
  by_cases h : c ≠ 0 <;> simp [h]

/-- Selection between vectors is made entry by entry, on one condition. -/
theorem Vec3.select_eq_ite (u v : Vec3 K) : Vec3.select c u v = if c ≠ 0 then u else v :=
  select_of_scalars (Attitude.select_eq_ite c) u v

/-- Selection between quaternions is made part by part, on one condition. -/
theorem Quaternion.select_eq_ite (p q : Quaternion K) :
    Quaternion.select c p q = if c ≠ 0 then p else q :=
  select_of_scalars (Attitude.select_eq_ite c) p q

end Field

/-- Of three, the larger one of two is no less than the third, unless the third is the largest. -/
theorem le_of_not_largest {K : Type} [LinearOrder K] {a b c : K} (h : ¬ (b < a ∧ c < a))
    (hcb : c ≤ b) : a ≤ b := by
  by_contra hlt
  exact h ⟨not_le.1 hlt, hcb.trans_lt (not_le.1 hlt)⟩

end Attitude
