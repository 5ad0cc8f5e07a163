import Attitude.Proofs.Scalar.Doubles

/-!
# Comparisons of doubles

Two doubles that are numbers compare one way or the other, and turning a comparison around swaps its
outcome (`UnpackedDouble.compare_swap`). So what is not above a tolerance is within it, or it is no
number (`Double.lt_eq_false_iff`). A check that refuses what exceeds a tolerance therefore accepts
two kinds of measures: those that are within the tolerance, and those of which one is no number
(`Double.exceeds_eq_false_iff`).
-/

namespace Attitude

namespace UnpackedDouble

open Float.Model (UnpackedFloat)
open Float.Model.UnpackedFloat

/-- Comparison the other way around. A nan compares with nothing, on either side. -/
theorem compare_swap (u v : UnpackedFloat) : v.compare u = (u.compare v).map Ordering.swap := by
  cases u with
  | notANumber => cases v <;> rfl
  | infinity s =>
    cases v with
    | infinity t => cases s <;> cases t <;> rfl
    | _ => cases s <;> rfl
  | zero s =>
    cases v with
    | infinity t => cases t <;> rfl
    | finite t n f k => cases t <;> rfl
    | _ => rfl
  | finite s m e h =>
    cases v with
    | notANumber => rfl
    | infinity t => cases t <;> rfl
    | zero t => cases s <;> rfl
    | finite t n f k =>
      -- equal signs leave it to the exponents and then to the mantissas
      have hthen : (compare f e).then (compare n m) = ((compare e f).then (compare m n)).swap := by
        rw [Ordering.swap_then, Int.compare_swap, Nat.compare_swap]
      cases s <;> cases t <;> simp only [UnpackedFloat.compare, hthen, Option.map_some] <;> rfl

/-- Nothing compares with a nan. -/
theorem compare_notANumber (u : UnpackedFloat) : u.compare .notANumber = none := by
  cases u <;> rfl

/-- Numbers compare. -/
theorem exists_compare {u v : UnpackedFloat} (hu : u ≠ .notANumber) (hv : v ≠ .notANumber) :
    ∃ o, u.compare v = some o := by
  -- all pairs of kinds: only a nan compares with nothing
  cases u with
  | notANumber => exact absurd rfl hu
  | infinity s =>
    cases v with
    | notANumber => exact absurd rfl hv
    | infinity t => exact ⟨_, rfl⟩
    | _ => cases s <;> exact ⟨_, rfl⟩
  | zero s =>
    cases v with
    | notANumber => exact absurd rfl hv
    | zero t => exact ⟨_, rfl⟩
    | infinity t => cases t <;> exact ⟨_, rfl⟩
    | finite t n f k => cases t <;> exact ⟨_, rfl⟩
  | finite s m e h =>
    cases v with
    | notANumber => exact absurd rfl hv
    | zero t => cases s <;> exact ⟨_, rfl⟩
    | infinity t => cases t <;> exact ⟨_, rfl⟩
    | finite t n f k => cases s <;> cases t <;> exact ⟨_, rfl⟩

/-- All doubles but a nan are at most themselves. -/
theorem le_self_iff {u : UnpackedFloat} : u.le u = true ↔ u ≠ .notANumber := by
  constructor
  · rintro h rfl
    cases h
  · intro hu
    obtain ⟨o, ho⟩ := exists_compare hu hu
    have hswap := compare_swap u u
    rw [ho] at hswap
    -- a comparison with itself is its own swap
    simp only [UnpackedFloat.le, ho]
    cases o with
    | gt => cases hswap
    | _ => rfl

/-- What is not above a number is at most the number, or no number. -/
theorem lt_eq_false_iff {u v : UnpackedFloat} (hu : u ≠ .notANumber) :
    u.lt v = false ↔ v = .notANumber ∨ v.le u = true := by
  by_cases hv : v = .notANumber
  · subst hv
    simp only [UnpackedFloat.lt, compare_notANumber, true_or, iff_true]
    rfl
  · obtain ⟨o, ho⟩ := exists_compare hu hv
    simp only [UnpackedFloat.lt, UnpackedFloat.le, compare_swap u v, ho, hv, false_or]
    cases o <;> decide

end UnpackedDouble

namespace Double

open Float.Model (UnpackedFloat)
open UnpackedDouble

/-- The test by comparison with itself finds the nan. -/
theorem isNumber_iff (a : Float) :
    Ground.isNumber a = true ↔ a.toModel.unpack ≠ .notANumber := by
  rw [Ground.isNumber, le_eq, le_self_iff]

/-- What a number is at most is a number. -/
theorem isNumber_of_le {a b : Float} (h : Ground.le a b = true) : Ground.isNumber b = true := by
  rw [isNumber_iff]
  intro hb
  rw [le_eq, hb, UnpackedFloat.le, compare_notANumber] at h
  cases h

variable {tol : Float} (htol : Ground.isNumber tol = true)
include htol

/-- What is not above a tolerance is within it, or no number. -/
theorem lt_eq_false_iff (a : Float) :
    Ground.lt tol a = false ↔ Ground.isNumber a = false ∨ Ground.le a tol = true := by
  rw [lt_eq, le_eq, UnpackedDouble.lt_eq_false_iff ((isNumber_iff tol).1 htol),
    ← Bool.not_eq_true (Ground.isNumber a), isNumber_iff, not_not]

/-- Measures that do not exceed a tolerance are within it, or one of them is no number. -/
theorem exceeds_eq_false_iff (xs : List Float) : exceeds tol xs = false ↔
    (∃ a ∈ xs, Ground.isNumber a = false) ∨ ∀ a ∈ xs, Ground.le a tol = true := by
  simp only [exceeds, Bool.and_eq_false_iff, List.all_eq_false, List.any_eq_false,
    Bool.not_eq_true]
  refine or_congr_right' fun hnumbers => forall₂_congr fun a ha => ?_
  rw [lt_eq_false_iff htol]
  exact or_iff_right fun h => hnumbers ⟨a, ha, h⟩

end Double

end Attitude
