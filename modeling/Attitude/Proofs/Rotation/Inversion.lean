import Attitude.Proofs.Rotation.Composition
import Attitude.Proofs.Rotation.Lengths

/-!
# The shadow set as an inversion

The shadow set of parameters is their inverse point with respect to the unit sphere, on the opposite
ray. Where the guard lets it act, that is for a squared length of more than `eps`, it has the
opposite quaternion, and its length is the reciprocal one. To come back the guard must let it act on
the result as well, whose squared length is the reciprocal of the first one (`shadow_shadow`).

These conditions are exact (`toQuaternion_shadow_iff`, `dot_self_shadow_mul_iff`,
`shadow_shadow_iff`): what the guard stops is answered as it is, and no rotation has the same
parameters as its shadow set inside of the unit ball.
-/

namespace Attitude.Rodrigues

section Field

variable {K : Type} [Field K] [LinearOrder K] {eps : K} {r : Vec3 K}

/-- Past the guard: the inverse point on the opposite ray. -/
theorem shadow_of_lt (h : eps < r.dot r) : shadow eps r = (-r).sdiv (r.dot r) := by
  rw [shadow_eq_ite, if_pos h]

/-- What the guard stops is answered as it is. -/
theorem shadow_of_le (h : r.dot r ≤ eps) : shadow eps r = r := by
  rw [shadow_eq_ite, if_neg h.not_gt]

variable [IsStrictOrderedRing K]

/-- A unit quaternion is not its own opposite. -/
theorem toQuaternion_ne_neg : toQuaternion r ≠ -toQuaternion r := by
  intro h
  have hunit : (toQuaternion r).normSq = 1 := isUnit_toQuaternion r
  rw [Quaternion.neg_eq] at h
  -- every component is zero, so is the length
  have hw := self_eq_neg.1 (congrArg Quaternion.w h)
  have hx := self_eq_neg.1 (congrArg Quaternion.x h)
  have hy := self_eq_neg.1 (congrArg Quaternion.y h)
  have hz := self_eq_neg.1 (congrArg Quaternion.z h)
  rw [Quaternion.normSq, hw, hx, hy, hz] at hunit
  simp only [mul_zero, add_zero, zero_ne_one] at hunit

variable (heps : 0 ≤ eps)

section Past

variable (h : eps < r.dot r)
include heps h

/-- The quaternion of the shadow set is the opposite one. -/
theorem toQuaternion_shadow_of_lt : toQuaternion (shadow eps r) = -toQuaternion r := by
  rw [shadow_of_lt h, toQuaternion_shadow r (heps.trans_lt h).ne']

/-- The squared length of the shadow set is the reciprocal one. -/
theorem dot_self_shadow : (shadow eps r).dot (shadow eps r) = 1 / r.dot r := by
  rw [shadow_of_lt h, dot_self_neg_sdiv r (heps.trans_lt h).ne']

/-- The shadow set of the shadow set, if it is not too near zero. -/
theorem shadow_shadow (hback : eps * r.dot r < 1) : shadow eps (shadow eps r) = r := by
  have hpos : 0 < r.dot r := heps.trans_lt h
  have hdot : (shadow eps r).dot (shadow eps r) = 1 / r.dot r := dot_self_shadow heps h
  have hfar : eps < (shadow eps r).dot (shadow eps r) := by
    rwa [hdot, lt_div_iff₀ hpos]
  rw [shadow_of_lt hfar, hdot, shadow_of_lt h]
  ext <;> simp only [Vec3.sdiv, Vec3.map, Vec3.neg_eq] <;> field_simp

end Past

/-! ## The exact conditions -/

include heps

/-- The quaternion is the opposite one exactly past the guard. -/
theorem toQuaternion_shadow_iff :
    toQuaternion (shadow eps r) = -toQuaternion r ↔ eps < r.dot r := by
  refine ⟨fun h => ?_, toQuaternion_shadow_of_lt heps⟩
  by_contra hle
  rw [shadow_of_le (not_lt.1 hle)] at h
  exact toQuaternion_ne_neg h

variable (hone : eps < 1)
include hone

/-- The squared lengths are reciprocal exactly past the guard: short parameters are answered as they
are, and the square of their squared length is too small. -/
theorem dot_self_shadow_mul_iff :
    (shadow eps r).dot (shadow eps r) * r.dot r = 1 ↔ eps < r.dot r := by
  constructor
  · intro h
    by_contra hle
    have hshort : r.dot r < 1 := (not_lt.1 hle).trans_lt hone
    rw [shadow_of_le (not_lt.1 hle)] at h
    exact (mul_lt_one_of_nonneg_of_lt_one_left (dot_self_nonneg r) hshort hshort.le).ne h
  · intro h
    rw [dot_self_shadow heps h, one_div_mul_cancel (heps.trans_lt h).ne']

/-- Parameters come back from their shadow set exactly if the guard lets it act on the shadow set
too. Those that the guard stops are among them. -/
theorem shadow_shadow_iff : shadow eps (shadow eps r) = r ↔ eps * r.dot r < 1 := by
  rcases le_or_gt (r.dot r) eps with hle | hlt
  · have hshort : eps * r.dot r < 1 :=
      mul_lt_one_of_nonneg_of_lt_one_left heps hone (hle.trans hone.le)
    rw [shadow_of_le hle, shadow_of_le hle]
    exact iff_of_true rfl hshort
  · refine ⟨fun h => ?_, shadow_shadow heps hlt⟩
    by_contra hfar
    have hpos : 0 < r.dot r := heps.trans_lt hlt
    have hdot : (shadow eps r).dot (shadow eps r) = 1 / r.dot r := dot_self_shadow heps hlt
    -- the shadow set is short, so it is answered as it is, but then `r` is its own shadow set
    have hstays : shadow eps (shadow eps r) = shadow eps r :=
      shadow_of_le (by rw [hdot, div_le_iff₀ hpos]; exact not_lt.1 hfar)
    have hopposite := toQuaternion_shadow_of_lt heps hlt
    rw [hstays.symm.trans h] at hopposite
    exact toQuaternion_ne_neg hopposite

end Field

section Real

variable {eps : ℝ} {r : Vec3 ℝ} (heps : 0 ≤ eps)
include heps

/-- The length of the shadow set is the reciprocal one. -/
theorem norm_shadow (h : eps < r.dot r) : (shadow eps r).norm = 1 / r.norm := by
  rw [Vec3.norm_eq, dot_self_shadow heps h, Vec3.norm_eq, Real.sqrt_div zero_le_one, Real.sqrt_one]

variable (hone : eps < 1)
include hone

/-- The lengths are reciprocal exactly beyond the guard. -/
theorem norm_shadow_mul_norm_iff : (shadow eps r).norm * r.norm = 1 ↔ eps < r.dot r := by
  rw [← dot_self_shadow_mul_iff heps hone, Vec3.norm_eq, Vec3.norm_eq,
    ← Real.sqrt_mul (dot_self_nonneg _), Real.sqrt_eq_one]

/-- Parameters in the unit ball have their shadow set outside of it, exactly past the guard. -/
theorem one_le_norm_shadow_iff (hr : r.norm ≤ 1) : 1 ≤ (shadow eps r).norm ↔ eps < r.dot r := by
  constructor
  · intro h
    by_contra hle
    rw [shadow_of_le (not_lt.1 hle), Vec3.norm_eq, Real.one_le_sqrt] at h
    exact hle (hone.trans_le h)
  · intro h
    have hpos : 0 < r.norm := Real.sqrt_pos.2 (heps.trans_lt h)
    rwa [norm_shadow heps h, one_le_div₀ hpos]

end Real

end Attitude.Rodrigues
