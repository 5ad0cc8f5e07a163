import Attitude.Closeness
import Attitude.Proofs.Elements.Acceptance
import Attitude.Proofs.Rotation.Distances

/-!
# When elements are close

Elements are close if they are apart by no more than the tolerance times the smaller of two lengths.
What is compared depends on the classes: the data of two quaternions, up to sign, and the rotation
matrices of any other two. Over the real numbers both are an inequality of distances
(`isClose_of_quaternions`, `isClose_of_numbers`). Data that is valid has a known length
(`isClose_of_units`, `isClose_of_rotations`).
-/

namespace Attitude

/-- The truth value of a comparison of real numbers. -/
theorem Ground.le_eq_decide (a b : ℝ) : Ground.le a b = decide (a ≤ b) :=
  Bool.eq_iff_iff.2 ((Ground.le_iff a b).trans decide_eq_true_iff.symm)

/-- The lesser of two numbers, as the comparison chooses it. -/
theorem smaller_eq_min (a b : ℝ) : smaller a b = min a b := by
  rw [smaller, min_comm, min_def_lt]
  exact if_congr (Ground.lt_iff b a) rfl rfl

namespace Grid

/-- The norm of a matrix of nine entries. -/
theorem norm_mat3 (m : Mat3 ℝ) : m.toGrid.norm = m.norm := by
  rw [norm, toList_toGrid]
  simp only [Mat3.toList, List.foldl_cons, List.foldl_nil, lit_zero, sqrt_eq, Mat3.norm,
    Mat3.normSq, Vec3.dot_eq, Mat3.col₁, Mat3.col₂, Mat3.col₃]
  ring_nf

theorem norm_quaternion (q : Quaternion ℝ) : q.toGrid.norm = q.norm := rfl

/-- The comparison of a distance with the tolerance, scaled by the lesser norm. -/
theorem within_eq_decide (tol : ℝ) (a b : Grid ℝ) (d : ℝ) :
    a.within tol b d = decide (d ≤ tol * min a.norm b.norm) := by
  rw [within, Ground.le_eq_decide, smaller_eq_min]

theorem isClose_mat3 (tol : ℝ) (m n : Mat3 ℝ) : isClose tol m.toGrid n.toGrid =
    .ok (decide ((m - n).norm ≤ tol * min m.norm n.norm)) := by
  have hdistance : distance (· - ·) m.toGrid n.toGrid = .ok (m - n).toGrid.norm := rfl
  simp only [isClose, hdistance, within_eq_decide, norm_mat3]
  rfl

/-- The comparison of two quaternions up to sign. -/
theorem isCloseUpToSign_quaternion (tol : ℝ) (p q : Quaternion ℝ) :
    isCloseUpToSign tol p.toGrid q.toGrid =
      .ok (decide (p.distance q ≤ tol * min p.norm q.norm)) := by
  have hsub : distance (· - ·) p.toGrid q.toGrid = .ok (p - q).toGrid.norm := rfl
  have hadd : distance (· + ·) p.toGrid q.toGrid = .ok (p + q).toGrid.norm := rfl
  simp only [isCloseUpToSign, hsub, hadd, within_eq_decide, norm_quaternion, smaller_eq_min]
  rfl

end Grid

namespace Context

variable {ctx : Context ℝ} {a b : Subject ℝ}

/-- Two quaternions are compared up to sign. -/
theorem isClose_of_quaternions (htag : a.cls.tag = b.cls.tag) (hf : a.cls.family = .quaternion)
    {p q : Quaternion ℝ} (hp : a.held.datum.numbers? = some p.toGrid)
    (hq : b.held.datum.numbers? = some q.toGrid) (tol : ℝ) :
    ctx.isClose tol a b = .ok (decide (p.distance q ≤ tol * min p.norm q.norm)) := by
  have hp : a.held.datum.numbers = .ok p.toGrid := by simp only [Datum.numbers, hp]
  have hq : b.held.datum.numbers = .ok q.toGrid := by simp only [Datum.numbers, hq]
  rw [isClose, if_pos ⟨htag, hf⟩, hp, hq]
  exact Grid.isCloseUpToSign_quaternion tol p q

/-- The rotation matrix of an element of numbers has the numbers that they stand for. -/
theorem numbers_of_rotationMatrix (hreg : ctx.registry = Catalog.builtinRegistry) (ha : a.Regular)
    {m : Grid ℝ} {M : Mat3 ℝ} (hm : a.held.datum.numbers? = some m)
    (hM : a.cls.family.HasMatrix m M) :
    ∃ k, ctx.rotationMatrix a = .ok k ∧ k.datum.numbers = .ok M.toGrid := by
  obtain ⟨k, hk, hnumbers⟩ := numbers_of_toCanonical hreg ha.cls ha.fits hm hM
  exact ⟨k, hk, by simp only [Datum.numbers, hnumbers]⟩

/-- Any other two elements are compared by their matrices. -/
theorem isClose_of_numbers (hreg : ctx.registry = Catalog.builtinRegistry)
    (hcls : ¬ (a.cls.tag = b.cls.tag ∧ a.cls.family = .quaternion)) (ha : a.Regular)
    (hb : b.Regular) {m n : Grid ℝ} {M N : Mat3 ℝ} (hm : a.held.datum.numbers? = some m)
    (hn : b.held.datum.numbers? = some n) (hM : a.cls.family.HasMatrix m M)
    (hN : b.cls.family.HasMatrix n N) (tol : ℝ) :
    ctx.isClose tol a b = .ok (decide ((M - N).norm ≤ tol * min M.norm N.norm)) := by
  obtain ⟨k, hk, hkM⟩ := numbers_of_rotationMatrix hreg ha hm hM
  obtain ⟨l, hl, hlN⟩ := numbers_of_rotationMatrix hreg hb hn hN
  simp only [isClose, if_neg hcls, hk, hl, hkM, hlN, bind, Except.bind]
  exact Grid.isClose_mat3 tol M N

/-- Unit quaternions are close if they are near each other up to sign. -/
theorem isClose_of_units (htag : a.cls.tag = b.cls.tag) (hf : a.cls.family = .quaternion)
    {p q : Quaternion ℝ} (hp : p.IsUnit) (hq : q.IsUnit)
    (ha : a.held.datum.numbers? = some p.toGrid) (hb : b.held.datum.numbers? = some q.toGrid)
    (tol : ℝ) : ctx.isClose tol a b = .ok (decide (p.distance q ≤ tol)) := by
  rw [isClose_of_quaternions htag hf ha hb, Quaternion.norm_of_unit hp, Quaternion.norm_of_unit hq,
    min_self, mul_one]

/-- Rotation matrices are close if they are near each other, as each is `√3` long. -/
theorem isClose_of_rotations (hreg : ctx.registry = Catalog.builtinRegistry)
    (hcls : ¬ (a.cls.tag = b.cls.tag ∧ a.cls.family = .quaternion)) (ha : a.Regular)
    (hb : b.Regular) {m n : Grid ℝ} {M N : Mat3 ℝ} (hm : a.held.datum.numbers? = some m)
    (hn : b.held.datum.numbers? = some n) (hM : a.cls.family.HasMatrix m M)
    (hN : b.cls.family.HasMatrix n N) (hrotation : M.IsRotation) (hrotation' : N.IsRotation)
    (tol : ℝ) :
    ctx.isClose tol a b = .ok (decide ((M - N).norm ≤ tol * Real.sqrt 3)) := by
  rw [isClose_of_numbers hreg hcls ha hb hm hn hM hN, hrotation.norm_eq, hrotation'.norm_eq,
    min_self]

end Context

end Attitude
