import Attitude.Proofs.Exact.Undefined
import Attitude.Proofs.Rotation.OfMatrix

/-!
# The component that is divided by

The quaternion of a matrix is computed four times, once for each component, and three of the four
may be undefined: a root of a negative number, or quotients by zero. The one that is chosen has at
least one under its root, for every matrix, so it is defined, and the choice drops the others
(`ofMat3_value`).
-/

namespace Attitude.Quaternion

open Partial

/-- The root is defined for a radicand that is not negative. -/
theorem halfRoot_value {s : ℝ} (hs : 0 ≤ s) : halfRoot (value s) = value (halfRoot s) := by
  have htwo : (lit 2 : ℝ) ≠ 0 := Nat.cast_ne_zero.2 two_ne_zero
  rw [halfRoot, sqrt_value hs]
  exact congrArg (· * value (Real.sqrt s)) (value_div htwo)

/-- A radicand is always defined, as it takes no root yet. -/
theorem radicand_value (m : Mat3 ℝ) (i : Component) :
    radicand (m.map value) i = value (radicand m i) := by
  cases i <;> rfl

/-- With at least one under the root, all components of the quaternion are defined. -/
theorem byComponent_value {m : Mat3 ℝ} {i : Component} (hi : 1 ≤ radicand m i) :
    byComponent (m.map value) i = (byComponent m i).map value := by
  have hroot : halfRoot (radicand (m.map value) i) = value (halfRoot (radicand m i)) := by
    rw [radicand_value, halfRoot_value (zero_le_one.trans hi)]
  have hne : lit 4 * halfRoot (radicand m i) ≠ 0 :=
    mul_ne_zero (Nat.cast_ne_zero.2 four_ne_zero) (by linarith [two_le_four_mul_halfRoot hi])
  cases i <;> simp only [byComponent, hroot]
  · exact ext rfl (value_div hne) (value_div hne) (value_div hne)
  · exact ext (value_div hne) rfl (value_div hne) (value_div hne)
  · exact ext (value_div hne) (value_div hne) rfl (value_div hne)
  · exact ext (value_div hne) (value_div hne) (value_div hne) rfl

/-- The choice between the four quaternions does not depend on those that are not chosen. -/
theorem ofMat3_eq_byComponent (m : Mat3 ℝ) :
    ofMat3 (m.map value) = byComponent (m.map value) (pivot m) := by
  have htrace : less (lit 0) (m.map value).trace = value (less (lit 0) m.trace) := value_less _ _
  have hx : both (less (m.map value).yy (m.map value).xx) (less (m.map value).zz (m.map value).xx) =
      value (both (less m.yy m.xx) (less m.zz m.xx)) := value_both _ _
  have hy : less (m.map value).zz (m.map value).yy = value (less m.zz m.yy) := value_less _ _
  simp only [ofMat3_eq_select, htrace, hx, hy, Quaternion.select_value, both_ne_zero, less_ne_zero,
    lit_zero, pivot]
  split_ifs <;> rfl

/-- The quaternion of a matrix of defined entries is defined. -/
theorem ofMat3_value (m : Mat3 ℝ) : ofMat3 (m.map value) = (ofMat3 m).map value := by
  rw [ofMat3_eq_byComponent, byComponent_value (one_le_radicand m), ofMat3_eq]

/-- **The quaternion of a rotation.** The choice by the trace and the diagonal is one of the four
components, with at least one under its root and a divisor of at least two, ties included; so no
undefined root or quotient of the other three reaches the result. For a rotation the result is a
unit quaternion with this matrix, and from the matrix of a unit quaternion it is the quaternion or
its negative. -/
theorem quaternion_of_chosen_component :
    (∀ m : Mat3 ℝ,
      ofMat3 m = byComponent m (pivot m) ∧
      ofMat3 (m.map value) = byComponent (m.map value) (pivot m) ∧
      1 ≤ radicand m (pivot m) ∧ 2 ≤ 4 * halfRoot (radicand m (pivot m)) ∧
      ofMat3 (m.map value) = (ofMat3 m).map value) ∧
    (∀ m : Mat3 ℝ, m.IsRotation → (ofMat3 m).IsUnit ∧ (ofMat3 m).toMat3 = m) ∧
    ∀ p : Quaternion ℝ, p.IsUnit → ofMat3 p.toMat3 = p ∨ ofMat3 p.toMat3 = -p := by
  refine ⟨fun m => ?_, fun m h => ⟨isUnit_ofMat3 h, toMat3_ofMat3 h⟩, fun p hp => ?_⟩
  · have hone := one_le_radicand m
    exact ⟨ofMat3_eq m, ofMat3_eq_byComponent m, hone, two_le_four_mul_halfRoot hone,
      ofMat3_value m⟩
  · exact hp.fits.eq_or_eq_neg (fits_ofMat3 hp.isRotation)

/-- A half turn with two equal largest entries on the diagonal. Division by the scalar part, which
is zero, would leave the quaternion undefined. -/
theorem quaternion_of_tied_diagonal :
    let m : Mat3 ℝ := ⟨0, 1, 0, 1, 0, 0, 0, 0, -1⟩
    let p : Quaternion ℝ := ⟨-1 / 2, -1 / 2, -1 / 2, -1 / 2⟩
    m.IsRotation ∧ p.IsUnit ∧ pivot m = .y ∧
      byComponent (m.map value) .w = ⟨value 0, undefined, undefined, undefined⟩ ∧
      (ofMat3 m).IsUnit ∧ (ofMat3 m).toMat3 = m ∧ ofMat3 (m.map value) = (ofMat3 m).map value ∧
      (ofMat3 p.toMat3 = p ∨ ofMat3 p.toMat3 = -p) := by
  intro m p
  have hrotation : m.IsRotation := by
    constructor
    · ext <;> simp only [m, Mat3.mul_eq, Mat3.transpose, Mat3.one_def] <;> norm_num
    · norm_num [m, Mat3.determinant]
  have hunit : p.IsUnit := by norm_num [p, IsUnit, normSq]
  have hpivot : pivot m = .y := by norm_num [m, pivot, Mat3.trace]
  -- the component that is not chosen divides by zero
  have hundefined : byComponent (m.map value) .w = ⟨value 0, undefined, undefined, undefined⟩ := by
    have hzero : radicand m .w = 0 := by norm_num [m, radicand]
    have hroot : halfRoot (radicand (m.map value) .w) = value 0 := by
      rw [radicand_value, hzero, halfRoot_value le_rfl, halfRoot_eq, Real.sqrt_zero, zero_div]
    have hquotient (x : ℝ) : value x / (lit 4 * value 0) = undefined := if_pos (mul_zero _)
    simp only [byComponent, hroot]
    exact ext rfl (hquotient _) (hquotient _) (hquotient _)
  obtain ⟨hchoice, hmatrices, hquaternions⟩ := quaternion_of_chosen_component
  obtain ⟨-, -, -, -, hvalue⟩ := hchoice m
  obtain ⟨hq, hm⟩ := hmatrices m hrotation
  exact ⟨hrotation, hunit, hpivot, hundefined, hq, hm, hvalue, hquaternions p hunit⟩

end Attitude.Quaternion
