import Attitude.Proofs.Exact.Real
import Attitude.Proofs.Rotation.Quaternion
import Attitude.Validity
import Mathlib.Tactic.FieldSimp
import Mathlib.Tactic.LinearCombination

/-!
# The check of rotations on exact numbers

On exact numbers elimination gives the determinant (`det_eq`): exchanging rows to bring a large
entry to the front changes the sign only, where the front entry is zero the whole column is, and the
exponential of a sum of logarithms is the product of the magnitudes (`signedProduct_eq`). So the
check accepts what is a rotation up to the tolerance (`isRotation_iff_near`). A rotation has no
defects at all, and it is accepted under every tolerance that is not negative (`isRotation_iff`).
-/

namespace Attitude

namespace Mat3

/-! ## The product of pivots

Signs and magnitudes are multiplied apart from each other: a sign is kept as a truth value, and
magnitudes as the sum of their logarithms. -/

/-- The factor of an exchange. -/
def sign (b : Bool) : ℝ := if b then -1 else 1

/-- Signs of truth values multiply as the truth values are combined. -/
theorem sign_xor (b c : Bool) : sign (b ^^ c) = sign b * sign c := by
  cases b <;> cases c <;> simp [sign]

/-- A number is its sign times its magnitude. -/
theorem sign_mul_abs (u : ℝ) : sign (Ground.lt u (lit 0)) * |u| = u := by
  unfold sign
  by_cases h : Ground.lt u (lit 0) = true
  · rw [if_pos h]
    rw [Ground.lt_iff, lit_zero] at h
    rw [abs_of_neg h, neg_one_mul, neg_neg]
  · rw [if_neg h]
    rw [Ground.lt_iff, lit_zero, not_lt] at h
    rw [abs_of_nonneg h, one_mul]

/-- The induction is on the pivots that are left; what is multiplied so far are the two
accumulators. -/
theorem sign_mul_exp_foldl {us : List ℝ} (hus : ∀ u ∈ us, u ≠ 0) (b : Bool) (s : ℝ) :
    sign (us.foldl (fun b u => b ^^ Ground.lt u (lit 0)) b) *
        Real.exp (us.foldl (fun s u => s + Real.log |u|) s) =
      sign b * Real.exp s * us.prod := by
  induction us generalizing b s with
  | nil => rw [List.foldl_nil, List.foldl_nil, List.prod_nil, mul_one]
  | cons u us ih =>
    have hu : 0 < |u| := abs_pos.2 (hus u (List.mem_cons_self ..))
    rw [List.foldl_cons, List.foldl_cons, ih (fun v hv => hus v (List.mem_cons_of_mem _ hv)),
      sign_xor, Real.exp_add, Real.exp_log hu, List.prod_cons]
    calc sign b * sign (Ground.lt u (lit 0)) * (Real.exp s * |u|) * us.prod
        = sign b * Real.exp s * (sign (Ground.lt u (lit 0)) * |u| * us.prod) := by ring
      _ = sign b * Real.exp s * (u * us.prod) := by rw [sign_mul_abs]

/-- On exact numbers the product of pivots is their product. -/
theorem signedProduct_eq (us : List ℝ) (exchanged : Bool) :
    signedProduct us exchanged = sign exchanged * us.prod := by
  unfold signedProduct
  by_cases hzero : us.any (Ground.same · (lit 0)) = true
  · rw [if_pos hzero]
    obtain ⟨u, hu, hsame⟩ := List.any_eq_true.1 hzero
    rw [Ground.same_iff, lit_zero] at hsame
    rw [List.prod_eq_zero (hsame ▸ hu), mul_zero, lit_zero]
  · rw [if_neg hzero]
    -- without a zero among them, all logarithms are of numbers other than zero
    have hus : ∀ u ∈ us, u ≠ 0 := by
      intro u hu h0
      refine hzero (List.any_eq_true.2 ⟨u, hu, ?_⟩)
      rw [Ground.same_iff, lit_zero]
      exact h0
    have hsign (b : Bool) : (if b then -lit 1 else lit 1 : ℝ) = sign b := by
      rw [lit_one, sign]
    show (if us.foldl (fun b u => b ^^ Ground.lt u (lit 0)) exchanged then -lit 1 else lit 1) *
      Real.exp (us.foldl (fun s u => s + Real.log |u|) (lit 0)) = _
    rw [hsign, sign_mul_exp_foldl hus, lit_zero, Real.exp_zero, mul_one]

/-! ## Elimination -/

/-- A row comes to the front if its entry is larger in magnitude. -/
theorem outweighs_iff (a b : ℝ) : outweighs a b = true ↔ |b| < |a| := Ground.lt_iff |b| |a|

/-- With or without the reciprocal, a multiplier is a quotient. -/
theorem multiplier_eq (a p : ℝ) : multiplier a p = a / p := by
  unfold multiplier
  split
  · rfl
  · rw [lit_one, mul_one_div]

/-- The determinant of two rows of two entries, by elimination: the rest of the second row times the
larger first entry. -/
theorem pivot₂_cases (q r : ℝ × ℝ) : ∃ s t e, pivot₂ q r = (s, t, e) ∧
    sign e * (s.1 * clear₂ s t) = q.1 * r.2 - q.2 * r.1 := by
  have hclear (s t : ℝ × ℝ) (ht : |t.1| ≤ |s.1|) : s.1 * clear₂ s t = s.1 * t.2 - s.2 * t.1 := by
    rw [clear₂, multiplier_eq]
    by_cases hs : s.1 = 0
    · -- the larger first entry is zero, so the other one is
      rw [hs, abs_zero] at ht
      rw [hs, abs_nonpos_iff.1 ht]
      ring
    · field_simp
  unfold pivot₂
  -- an exchange of the rows changes the sign, and the clearing does not
  by_cases h : outweighs r.1 q.1 = true
  · rw [if_pos h]
    refine ⟨r, q, true, rfl, ?_⟩
    rw [hclear r q ((outweighs_iff _ _).1 h).le, sign, if_pos rfl]
    ring
  · rw [if_neg h]
    refine ⟨q, r, false, rfl, ?_⟩
    rw [hclear q r (not_lt.1 (mt (outweighs_iff _ _).2 h)), sign, if_neg Bool.false_ne_true,
      one_mul]

/-- The determinant of three rows. -/
def triple (p q r : Vec3 ℝ) : ℝ :=
  p.x * (q.y * r.z - q.z * r.y) - p.y * (q.x * r.z - q.z * r.x) + p.z * (q.x * r.y - q.y * r.x)

/-- The front row has a first entry of largest magnitude, and the rows have the determinant of the
given ones up to the sign of an exchange. -/
theorem pivot_cases (p q r : Vec3 ℝ) : ∃ p' q' r' e, pivot p q r = (p', q', r', e) ∧
    |q'.x| ≤ |p'.x| ∧ |r'.x| ≤ |p'.x| ∧ triple p q r = sign e * triple p' q' r' := by
  unfold pivot
  -- first the better of the first two rows, then it against the third: one exchange at most
  by_cases hqp : outweighs q.x p.x = true
  · have hqp' := (outweighs_iff _ _).1 hqp
    rw [if_pos hqp]
    by_cases hrq : outweighs r.x q.x = true
    · have hrq' := (outweighs_iff _ _).1 hrq
      rw [if_pos hrq]
      refine ⟨r, q, p, true, rfl, hrq'.le, (hqp'.trans hrq').le, ?_⟩
      simp only [sign, if_true, triple]
      ring
    · have hrq' := not_lt.1 (mt (outweighs_iff _ _).2 hrq)
      rw [if_neg hrq]
      refine ⟨q, p, r, true, rfl, hqp'.le, hrq', ?_⟩
      simp only [sign, if_true, triple]
      ring
  · have hqp' := not_lt.1 (mt (outweighs_iff _ _).2 hqp)
    rw [if_neg hqp]
    by_cases hrp : outweighs r.x p.x = true
    · have hrp' := (outweighs_iff _ _).1 hrp
      rw [if_pos hrp]
      refine ⟨r, q, p, true, rfl, hqp'.trans hrp'.le, hrp'.le, ?_⟩
      simp only [sign, if_true, triple]
      ring
    · have hrp' := not_lt.1 (mt (outweighs_iff _ _).2 hrp)
      rw [if_neg hrp]
      exact ⟨p, q, r, false, rfl, hqp', hrp', (one_mul _).symm⟩

/-- One step of elimination: what is left is the determinant of the cleared rows. -/
theorem mul_clear (p q r : Vec3 ℝ) (hq : |q.x| ≤ |p.x|) (hr : |r.x| ≤ |p.x|) :
    p.x * ((clear p q).1 * (clear p r).2 - (clear p q).2 * (clear p r).1) = triple p q r := by
  simp only [clear, multiplier_eq, triple]
  by_cases hp : p.x = 0
  · -- the first column is zero
    rw [hp, abs_zero] at hq hr
    rw [hp, abs_nonpos_iff.1 hq, abs_nonpos_iff.1 hr]
    ring
  · field_simp
    ring

/-- On exact numbers elimination gives the determinant. -/
theorem det_eq (m : Mat3 ℝ) : m.det = m.determinant := by
  obtain ⟨p, q, r, e, hpivot, hq, hr, htriple⟩ := pivot_cases m.row₁ m.row₂ m.row₃
  obtain ⟨s, t, e', hpivot₂, hrest⟩ := pivot₂_cases (clear p q) (clear p r)
  have hpivots : m.pivots = ([p.x, s.1, clear₂ s t], e ^^ e') := by
    simp only [pivots, hpivot, hpivot₂]
  calc m.det = signedProduct [p.x, s.1, clear₂ s t] (e ^^ e') := by rw [det, hpivots]
    _ = sign (e ^^ e') * [p.x, s.1, clear₂ s t].prod := signedProduct_eq _ _
    _ = sign e * (p.x * (sign e' * (s.1 * clear₂ s t))) := by
        rw [sign_xor, List.prod_cons, List.prod_cons, List.prod_singleton]
        ring
    _ = sign e * triple p q r := by rw [hrest, mul_clear p q r hq hr]
    _ = m.determinant := htriple.symm

/-! ## The check -/

/-- The matrix is a rotation up to `tol`: no entry of the product of the transpose with the matrix
is further than `tol` from the identity, nor the determinant from one. -/
structure NearRotation (tol : ℝ) (m : Mat3 ℝ) : Prop where
  orthogonal : ∀ d ∈ (m.transpose * m - 1).toList, |d| ≤ tol
  determinant : |m.determinant - 1| ≤ tol

variable {m : Mat3 ℝ} {tol tol' : ℝ}

theorem NearRotation.mono (h : m.NearRotation tol) (htol : tol ≤ tol') : m.NearRotation tol' where
  orthogonal d hd := (h.orthogonal d hd).trans htol
  determinant := h.determinant.trans htol

/-- On real numbers the greatest of a list exceeds the tolerance if one of the list does. -/
theorem exceeds_iff (tol : ℝ) (xs : List ℝ) : exceeds tol xs = true ↔ ∃ x ∈ xs, tol < x := by
  simp only [exceeds, Bool.and_eq_true, List.all_eq_true, List.any_eq_true, Ground.isNumber_real,
    Ground.lt_iff, implies_true, true_and]

/-- The check accepts what is a rotation up to the tolerance. -/
theorem isRotation_iff_near (m : Mat3 ℝ) (tol : ℝ) :
    m.isRotation tol = true ↔ m.NearRotation tol := by
  have hdefects : m.orthogonalDefects = (m.transpose * m - 1).toList.map (|·|) := rfl
  have hdet : FieldOps.abs (m.det - lit 1) = |m.determinant - 1| := by
    rw [det_eq, lit_one, abs_eq]
  rw [isRotation, Bool.and_eq_true, Bool.not_eq_true', Bool.not_eq_true', ← Bool.not_eq_true,
    ← Bool.not_eq_true, exceeds_iff, Ground.lt_iff, not_lt, hdet, hdefects]
  -- the check looks for a defect that is too large, so it accepts if there is none
  constructor
  · rintro ⟨horthogonal, hdeterminant⟩
    refine ⟨fun d hd => not_lt.1 fun hlt => horthogonal ?_, hdeterminant⟩
    exact ⟨|d|, List.mem_map_of_mem hd, hlt⟩
  · rintro ⟨horthogonal, hdeterminant⟩
    refine ⟨?_, hdeterminant⟩
    rintro ⟨_, hmem, hlt⟩
    obtain ⟨d, hd, rfl⟩ := List.mem_map.1 hmem
    exact (horthogonal d hd).not_gt hlt

/-- A rotation misses nothing, so no tolerance refuses it. -/
theorem IsRotation.near (h : m.IsRotation) (htol : 0 ≤ tol) : m.NearRotation tol where
  orthogonal := by
    rw [h.orthogonal]
    simpa [toList, sub_eq, one_def] using htol
  determinant := by
    rw [h.determinant_eq, sub_self, abs_zero]
    exact htol

/-- A rotation passes the check under every tolerance that is not negative, and only then. -/
theorem isRotation_iff (h : m.IsRotation) (tol : ℝ) : m.isRotation tol = true ↔ 0 ≤ tol :=
  (isRotation_iff_near m tol).trans
    ⟨fun hnear => (abs_nonneg _).trans hnear.determinant, h.near⟩

end Mat3

/-- How far the matrix of a quaternion is from a rotation is told by powers of its length. -/
theorem Quaternion.near_toMat3_iff (q : Quaternion ℝ) (tol : ℝ) : q.toMat3.NearRotation tol ↔
    |q.normSq ^ 2 - 1| ≤ tol ∧ |q.normSq ^ 3 - 1| ≤ tol := by
  have hdeterminant : q.toMat3.determinant = q.normSq ^ 3 := by
    rw [determinant_toMat3]
    ring
  have hdefects : (q.toMat3.transpose * q.toMat3 - 1).toList =
      [q.normSq ^ 2 - 1, 0, 0, 0, q.normSq ^ 2 - 1, 0, 0, 0, q.normSq ^ 2 - 1] := by
    rw [transpose_mul_toMat3]
    simp [Mat3.toList, Mat3.sub_eq, Mat3.smul, Mat3.map, Mat3.one_def, pow_two]
  constructor
  · rintro ⟨horthogonal, hdet⟩
    rw [hdefects] at horthogonal
    rw [hdeterminant] at hdet
    exact ⟨horthogonal _ (List.mem_cons_self ..), hdet⟩
  · rintro ⟨hsq, hcube⟩
    -- a defect of zero passes, as the tolerance is not negative if another one passes
    have htol : |(0 : ℝ)| ≤ tol := abs_zero.trans_le ((abs_nonneg _).trans hsq)
    refine ⟨?_, by rwa [hdeterminant]⟩
    rw [hdefects]
    simp only [List.forall_mem_cons]
    exact ⟨hsq, htol, htol, htol, hsq, htol, htol, htol, hsq, List.forall_mem_nil _⟩

end Attitude
