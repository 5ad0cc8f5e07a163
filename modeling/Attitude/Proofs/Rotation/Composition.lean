import Attitude.Proofs.Exact.Undefined
import Attitude.Proofs.Rotation.Rodrigues
import Mathlib.Tactic.Linarith

/-!
# Compositions of parameters

There are two ways to the parameters of a composition: the closed form, brought into the unit ball
by the shadow set, and the product of the unit quaternions. They agree for all parameters, inside
and outside of the ball (`mul_eq_ofQuaternion`). The squared length of `q.vec / (1 + q.w)` is
`(1 - w) / (1 + w)`, so the sign of the scalar part decides two things at once: whether the closed
form leaves the ball, and which of the two quaternions is the upper one (`shadowIfOutside_sdiv`).

Where the denominator of the closed form is zero its quotient is undefined, and the choice between
the two ways drops it (`mul_value`).
-/

namespace Attitude.Rodrigues

open Partial

variable {K : Type} [Field K] [LinearOrder K] [IsStrictOrderedRing K]
variable {q : Quaternion K} {eps : K} (r a b : Vec3 K)

/-! ## The unit ball -/

/-- The parameters of a unit quaternion lie in the unit ball. -/
theorem dot_self_ofQuaternion_le (hq : q.IsUnit) :
    (ofQuaternion q).dot (ofQuaternion q) ≤ 1 := by
  have hnonneg := q.upper_w_nonneg
  have hpos : 0 < 1 + q.upper.w := by linarith
  rw [ofQuaternion, lit_one, dot_self_sdiv hq.upper hpos.ne', div_le_one hpos]
  linarith

omit [IsStrictOrderedRing K] in
/-- Parameters in the unit ball are handed back. -/
theorem shadowIfOutside_of_le {r : Vec3 K} (hr : r.dot r ≤ 1) : shadowIfOutside eps r = r := by
  rw [shadowIfOutside_eq_ite, if_neg hr.not_gt]

omit [IsStrictOrderedRing K] in
/-- Parameters outside are replaced by their shadow set: the guard only holds back what is short. -/
theorem shadowIfOutside_of_lt {r : Vec3 K} (heps : eps ≤ 1) (hr : 1 < r.dot r) :
    shadowIfOutside eps r = (-r).sdiv (r.dot r) := by
  rw [shadowIfOutside_eq_ite, if_pos hr, shadow_eq_ite, if_pos (heps.trans_lt hr)]

/-- The vector part of a unit quaternion by one plus its scalar part, brought into the unit ball, is
the parameters of the quaternion. -/
theorem shadowIfOutside_sdiv (heps : eps ≤ 1) (hq : q.IsUnit) (hw : 1 + q.w ≠ 0) :
    shadowIfOutside eps (q.vec.sdiv (1 + q.w)) = ofQuaternion q := by
  have hunit : q.w * q.w + q.x * q.x + q.y * q.y + q.z * q.z = 1 := hq
  -- no component of a unit quaternion is under minus one
  have hpos : 0 < 1 + q.w := by
    refine lt_of_le_of_ne ?_ hw.symm
    nlinarith [mul_self_nonneg q.x, mul_self_nonneg q.y, mul_self_nonneg q.z]
  have hdot := dot_self_sdiv hq hw
  by_cases hneg : q.w < 0
  · have hlong : 1 < (1 - q.w) / (1 + q.w) := by
      rw [one_lt_div hpos]
      linarith
    have hne : 1 - q.w ≠ 0 := by linarith
    have hupper : q.upper = -q := by rw [Quaternion.upper_eq_ite, if_pos hneg]
    rw [shadowIfOutside_of_lt heps (hlong.trans_eq hdot.symm), hdot, ofQuaternion, hupper, lit_one]
    -- either way it is minus the vector part by one less the scalar part
    have hcomponent (x : K) : -(x / (1 + q.w)) / ((1 - q.w) / (1 + q.w)) = -x / (1 + -q.w) := by
      rw [← sub_eq_add_neg]
      field_simp
    ext <;> exact hcomponent _
  · have hshort : (1 - q.w) / (1 + q.w) ≤ 1 := by
      rw [div_le_one hpos]
      linarith
    have hupper : q.upper = q := by rw [Quaternion.upper_eq_ite, if_neg hneg]
    rw [shadowIfOutside_of_le (hdot.trans_le hshort), ofQuaternion, hupper, lit_one]

/-- The two ways to the parameters of a composition agree. -/
theorem mul_eq_ofQuaternion (hnonneg : 0 ≤ eps) (hle : eps ≤ 1) :
    mul eps a b = ofQuaternion (toQuaternion a * toQuaternion b) := by
  have hunit := (isUnit_toQuaternion a).mul (isUnit_toQuaternion b)
  rw [mul_eq]
  split_ifs with h
  · have hden : 1 + a.dot a * b.dot b - 2 * b.dot a ≠ 0 := abs_pos.1 (hnonneg.trans_lt h)
    rw [closedProduct_eq a b hden]
    exact shadowIfOutside_sdiv hle hunit (one_add_w_mul_ne_zero a b hden)
  · exact shadowIfOutside_of_le (dot_self_ofQuaternion_le hunit)

/-! ## Undefined quotients

The denominators of the other formulas are one plus a square and one plus the scalar part of an
upper quaternion. -/

/-- The quaternion of parameters takes a quotient with a denominator that does not vanish. -/
theorem toQuaternion_value : toQuaternion (r.map value) = (toQuaternion r).map value := by
  have hden : lit 1 + r.dot r ≠ 0 := by
    rw [lit_one]
    exact one_add_dot_self_ne_zero r
  ext <;> exact value_div hden

/-- The projection is defined for every quaternion: the hemisphere choice leaves a scalar part that is
not negative, so the denominator is at least one. -/
theorem ofQuaternion_value (q : Quaternion K) :
    ofQuaternion (q.map value) = (ofQuaternion q).map value := by
  have hupper : (q.map value).upper = q.upper.map value := Quaternion.select_map_value _ (-q) q
  have hden : lit 1 + q.upper.w ≠ 0 := by
    rw [lit_one]
    exact (add_pos_of_pos_of_nonneg one_pos q.upper_w_nonneg).ne'
  rw [ofQuaternion, hupper]
  exact Vec3.sdiv_value q.upper.vec hden

omit [IsStrictOrderedRing K] in
/-- The quotient of the shadow set is undefined at zero only, where the guard does not select it. -/
theorem shadow_value (heps : 0 ≤ eps) :
    shadow (value eps) (r.map value) = (shadow eps r).map value := by
  refine (Vec3.select_value (less eps (r.dot r)) _ _).trans ?_
  rw [shadow_eq_ite]
  simp only [less_ne_zero]
  split_ifs with h
  · exact Vec3.sdiv_value (-r) (heps.trans_lt h).ne'
  · rfl

omit [IsStrictOrderedRing K] in
/-- The wrap selects no undefined quotient. -/
theorem shadowIfOutside_value (heps : 0 ≤ eps) :
    shadowIfOutside (value eps) (r.map value) = (shadowIfOutside eps r).map value := by
  rw [shadowIfOutside, shadow_value r heps]
  exact Vec3.select_map_value _ _ _

/-- A composition of defined parameters is defined. -/
theorem mul_value (heps : 0 ≤ eps) :
    mul (value eps) (a.map value) (b.map value) = (mul eps a b).map value := by
  let n : Vec3 K := b.smul (lit 1 - a.dot a) + a.smul (lit 1 - b.dot b) - (b.cross a).smul (lit 2)
  let d : K := lit 1 + a.dot a * b.dot b - lit 2 * b.dot a
  let q : Quaternion K := toQuaternion a * toQuaternion b
  have hthrough : ofQuaternion (toQuaternion (a.map value) * toQuaternion (b.map value)) =
      (ofQuaternion q).map value := by
    rw [toQuaternion_value, toQuaternion_value]
    exact ofQuaternion_value q
  -- the quotient by a zero denominator is not chosen
  have hchoice : Vec3.select (value (less eps |d|)) ((n.map value).sdiv (value d))
      ((ofQuaternion q).map value) =
        (Vec3.select (less eps |d|) (n.sdiv d) (ofQuaternion q)).map value := by
    rw [Vec3.select_value, Vec3.select_eq_ite]
    by_cases h : less eps |d| ≠ 0
    · have hd : d ≠ 0 := abs_pos.1 (heps.trans_lt ((less_ne_zero _ _).1 h))
      rw [if_pos h, if_pos h, Vec3.sdiv_value n hd]
    · rw [if_neg h, if_neg h]
  calc mul (value eps) (a.map value) (b.map value)
      = shadowIfOutside (value eps) (Vec3.select (value (less eps |d|))
          ((n.map value).sdiv (value d))
          (ofQuaternion (toQuaternion (a.map value) * toQuaternion (b.map value)))) := rfl
    _ = shadowIfOutside (value eps)
          ((Vec3.select (less eps |d|) (n.sdiv d) (ofQuaternion q)).map value) := by
        rw [hthrough, hchoice]
    _ = (mul eps a b).map value := shadowIfOutside_value _ heps

/-! ## Both ways -/

/-- **Compositions.** The product of parameters is the one of their unit quaternions, so it lies in
the unit ball, and its matrix is the product of the matrices. The denominator of the closed form may
be zero: no undefined quotient reaches the result. -/
theorem product_through_quaternions (hnonneg : 0 ≤ eps) (hle : eps ≤ 1) :
    mul eps a b = ofQuaternion (toQuaternion a * toQuaternion b) ∧
    (mul eps a b).dot (mul eps a b) ≤ 1 ∧
    toMat3 (mul eps a b) = toMat3 a * toMat3 b ∧
    mul (value eps) (a.map value) (b.map value) = (mul eps a b).map value := by
  have hproduct := mul_eq_ofQuaternion a b hnonneg hle
  refine ⟨hproduct, ?_, toMat3_mul a b hnonneg, mul_value a b hnonneg⟩
  rw [hproduct]
  exact dot_self_ofQuaternion_le ((isUnit_toQuaternion a).mul (isUnit_toQuaternion b))

/-- Rational parameters outside of the unit ball and others inside: the composition is a whole turn,
and the denominator of the closed form is zero. -/
theorem product_of_wholeTurn :
    let a : Vec3 ℚ := ⟨2, 0, 0⟩
    let b : Vec3 ℚ := ⟨1 / 2, 0, 0⟩
    let eps : ℚ := 1 / 10 ^ 7
    0 ≤ eps ∧ eps ≤ 1 ∧ 1 + a.dot a * b.dot b - 2 * b.dot a = 0 ∧
      mul eps a b = ⟨0, 0, 0⟩ ∧ toMat3 a * toMat3 b = 1 ∧
      mul (value eps) (a.map value) (b.map value) = ⟨value 0, value 0, value 0⟩ := by
  intro a b eps
  have hnonneg : 0 ≤ eps := by norm_num [eps]
  have hle : eps ≤ 1 := by norm_num [eps]
  have hden : 1 + a.dot a * b.dot b - 2 * b.dot a = 0 := by norm_num [a, b, Vec3.dot_eq]
  -- together the two turn by a whole turn, where the closed formula has no denominator
  have hquaternion : toQuaternion a * toQuaternion b = ⟨-1, 0, 0, 0⟩ := by
    rw [Quaternion.mul_eq, toQuaternion_eq, toQuaternion_eq]
    ext <;> norm_num [a, b, Vec3.dot_eq]
  have hzero : ofQuaternion (⟨-1, 0, 0, 0⟩ : Quaternion ℚ) = ⟨0, 0, 0⟩ := by
    ext <;> norm_num [ofQuaternion, Quaternion.upper_eq_ite, Quaternion.neg_eq, Quaternion.vec,
      Vec3.sdiv, Vec3.map]
  obtain ⟨hproduct, -, hmatrix, hvalue⟩ := product_through_quaternions a b hnonneg hle
  rw [hquaternion, hzero] at hproduct
  refine ⟨hnonneg, hle, hden, hproduct, ?_, ?_⟩
  · rw [← hmatrix, hproduct, ← Vec3.zero_eq, toMat3_zero]
  · rw [hvalue, hproduct]
    rfl

end Attitude.Rodrigues
