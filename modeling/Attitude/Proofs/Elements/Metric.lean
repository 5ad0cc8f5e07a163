import Attitude.Proofs.Elements.Closeness
import Attitude.Proofs.Rotation.Metric

/-!
# Closeness as a metric

Closeness is symmetric for any two elements, whatever their data: matrices of numbers by the
symmetry of both distances, and if either has symbols left neither order has an answer
(`isClose_comm`). Valid data of one encoding all has the same length, so there the tolerance is not
relative, and closeness adds up as distances do (`isClose_self`, `isClose_trans`). The sign of a
quaternion does not matter (`isClose_neg`).
-/

namespace Attitude

/-! ## Symmetry -/

namespace Grid

variable {m n : Grid ℝ} (tol : ℝ)

/-- The comparison of matrices is symmetric: the distance is, and so is the lesser norm. -/
theorem isClose_comm (hm : m.shape = [3, 3]) (hn : n.shape = [3, 3]) :
    isClose tol m n = isClose tol n m := by
  obtain ⟨M, rfl⟩ := exists_mat3 hm
  obtain ⟨N, rfl⟩ := exists_mat3 hn
  rw [isClose_mat3, isClose_mat3, Mat3.norm_sub_comm, min_comm]

/-- The comparison of quaternions is symmetric. -/
theorem isCloseUpToSign_comm (hm : m.shape = [4, 1]) (hn : n.shape = [4, 1]) :
    isCloseUpToSign tol m n = isCloseUpToSign tol n m := by
  obtain ⟨p, rfl⟩ := exists_quaternion hm
  obtain ⟨q, rfl⟩ := exists_quaternion hn
  rw [isCloseUpToSign_quaternion, isCloseUpToSign_quaternion, Quaternion.distance_comm, min_comm]

/-- The sign of a quaternion does not matter to the comparison. -/
theorem isCloseUpToSign_neg (q : Quaternion ℝ) (hn : n.shape = [4, 1]) :
    isCloseUpToSign tol (-q).toGrid n = isCloseUpToSign tol q.toGrid n := by
  obtain ⟨p, rfl⟩ := exists_quaternion hn
  rw [isCloseUpToSign_quaternion, isCloseUpToSign_quaternion, Quaternion.norm_neg,
    Quaternion.distance_comm, Quaternion.distance_neg, Quaternion.distance_comm]

end Grid

/-- Data has symbols left, or numbers in its shape. -/
theorem Datum.Fits.numbers_cases {a : List Nat} {d : Datum ℝ} (hd : d.Fits a) :
    d.numbers = .error .freeSymbols ∨ ∃ m, d.numbers = .ok m ∧ m.shape = a := by
  unfold numbers
  cases hm : d.numbers? with
  | none => exact .inl rfl
  | some m => exact .inr ⟨m, rfl, (hd.legible.shape_of_numbers? hm).trans hd.shape⟩

/-- The numbers of two data may be asked for in either order, since symbols that are left are
refused in the same way wherever they are. -/
theorem Datum.numbers_comm {β : Type} {a b : List Nat} {d e : Datum ℝ}
    {f : Grid ℝ → Grid ℝ → Except Fault β} (hd : d.Fits a) (he : e.Fits b)
    (hf : ∀ m n, m.shape = a → n.shape = b → f m n = f n m) :
    (do f (← d.numbers) (← e.numbers)) = (do f (← e.numbers) (← d.numbers)) := by
  obtain hsymbols | ⟨m, hm, hshape⟩ := hd.numbers_cases <;>
    obtain hsymbols' | ⟨n, hn, hshape'⟩ := he.numbers_cases
  · rw [hsymbols, hsymbols']
  · rw [hsymbols, hn]
    rfl
  · rw [hm, hsymbols']
    rfl
  · rw [hm, hn]
    exact hf m n hshape hshape'

/-- Classes of one tag compute in the same way. -/
theorem ConcreteClass.Regular.family_eq {c d : ConcreteClass} (hc : c.Regular) (hd : d.Regular)
    (htag : c.tag = d.tag) : c.family = d.family := by
  have htag : c.family.tag = d.family.tag := Option.some.inj (hc.symm.trans (htag.trans hd))
  cases hf : c.family <;> cases hg : d.family <;> rw [hf, hg] at htag <;> first | rfl | cases htag

namespace Context

variable {ctx : Context ℝ} {a b c : Subject ℝ}

section Builtin

variable (hreg : ctx.registry = Catalog.builtinRegistry)
include hreg

/-- Every element has a rotation matrix. -/
theorem exists_rotationMatrix (ha : a.Regular) :
    ∃ k, ctx.rotationMatrix a = .ok k ∧ k.datum.Fits [3, 3] := by
  obtain ⟨k, hk⟩ := exists_toCanonical_of_fits hreg ha.cls ha.fits
  exact ⟨k, hk, ((rotationMatrix_new hreg ha).answer hk).fits⟩

/-- **Symmetry.** -/
theorem isClose_comm (ha : a.Regular) (hb : b.Regular) (tol : ℝ) :
    ctx.isClose tol a b = ctx.isClose tol b a := by
  unfold isClose
  -- two quaternions are compared by their data, all others by their matrices
  by_cases hcls : a.cls.tag = b.cls.tag ∧ a.cls.family = .quaternion
  · obtain ⟨htag, hf⟩ := hcls
    have hg : b.cls.family = .quaternion := (ha.cls.family_eq hb.cls htag).symm.trans hf
    rw [if_pos ⟨htag, hf⟩, if_pos ⟨htag.symm, hg⟩]
    have hafits := ha.fits
    have hbfits := hb.fits
    rw [hf] at hafits
    rw [hg] at hbfits
    exact Datum.numbers_comm hafits hbfits fun m n hm hn => Grid.isCloseUpToSign_comm tol hm hn
  · have hcls' : ¬ (b.cls.tag = a.cls.tag ∧ b.cls.family = .quaternion) := fun h =>
      hcls ⟨h.1.symm, (ha.cls.family_eq hb.cls h.1.symm).trans h.2⟩
    obtain ⟨k, hk, hkfits⟩ := exists_rotationMatrix hreg ha
    obtain ⟨l, hl, hlfits⟩ := exists_rotationMatrix hreg hb
    rw [if_neg hcls, if_neg hcls', hk, hl]
    exact Datum.numbers_comm hkfits hlfits fun m n hm hn => Grid.isClose_comm tol hm hn

end Builtin

end Context

/-! ## Valid data -/

/-- Valid data of a quaternion is a unit quaternion. -/
theorem Family.Encodes.exists_unit {f : Family} {m : Grid ℝ} {R : Mat3 ℝ} (h : f.Encodes m R)
    (hf : f = .quaternion) : ∃ q : Quaternion ℝ, q.IsUnit ∧ m = q.toGrid := by
  cases h with
  | euler e => cases hf
  | exact hm =>
    cases hm with
    | matrix hR => cases hf
    | rodrigues hR => cases hf
    | quaternion hq hR => exact ⟨_, hq, rfl⟩

/-- An element of the family with numbers that stand for the rotation `R`. -/
structure Subject.Valid (a : Subject ℝ) (f : Family) (m : Grid ℝ) (R : Mat3 ℝ) : Prop where
  family : a.cls.family = f
  numbers : a.held.datum.numbers? = some m
  encodes : f.Encodes m R

namespace Context

variable {ctx : Context ℝ} {f : Family} {a a' b c : Subject ℝ} {l m n : Grid ℝ} {L M N : Mat3 ℝ}
  {p q : Quaternion ℝ}

/-- Valid quaternions are compared up to sign. -/
theorem isClose_of_valid_units (hf : f = .quaternion) (ha : a.Regular) (hb : b.Regular)
    (hm : a.Valid f p.toGrid M) (hn : b.Valid f q.toGrid N) (hp : p.IsUnit) (hq : q.IsUnit)
    (tol : ℝ) : ctx.isClose tol a b = .ok (decide (p.distance q ≤ tol)) := by
  have htag : a.cls.tag = b.cls.tag := by rw [ha.cls, hb.cls, hm.family, hn.family]
  exact isClose_of_units htag (hm.family.trans hf) hp hq hm.numbers hn.numbers tol

section Builtin

variable (hreg : ctx.registry = Catalog.builtinRegistry)
include hreg

/-- Valid elements of any other class are compared by their matrices. -/
theorem isClose_of_valid (hf : f ≠ .quaternion) (ha : a.Regular) (hb : b.Regular)
    (hm : a.Valid f m M) (hn : b.Valid f n N) (tol : ℝ) :
    ctx.isClose tol a b = .ok (decide ((M - N).norm ≤ tol * Real.sqrt 3)) := by
  have hcls : ¬ (a.cls.tag = b.cls.tag ∧ a.cls.family = .quaternion) := fun h =>
    hf (hm.family.symm.trans h.2)
  exact isClose_of_rotations hreg hcls ha hb hm.numbers hn.numbers
    (hm.family ▸ hm.encodes.hasMatrix) (hn.family ▸ hn.encodes.hasMatrix) hm.encodes.isRotation
    hn.encodes.isRotation tol

/-- A comparison of valid elements of one class has an answer. -/
theorem exists_isClose (ha : a.Regular) (hb : b.Regular) (hm : a.Valid f m M)
    (hn : b.Valid f n N) (tol : ℝ) : ∃ close, ctx.isClose tol a b = .ok close := by
  by_cases hf : f = .quaternion
  · obtain ⟨p, hp, rfl⟩ := hm.encodes.exists_unit hf
    obtain ⟨q, hq, rfl⟩ := hn.encodes.exists_unit hf
    exact ⟨_, isClose_of_valid_units hf ha hb hm hn hp hq tol⟩
  · exact ⟨_, isClose_of_valid hreg hf ha hb hm hn tol⟩

/-- A valid element is close to itself without any tolerance. -/
theorem isClose_self (ha : a.Regular) (hm : a.Valid f m M) : ctx.isClose 0 a a = .ok true := by
  by_cases hf : f = .quaternion
  · obtain ⟨q, hq, rfl⟩ := hm.encodes.exists_unit hf
    rw [isClose_of_valid_units hf ha ha hm hm hq hq, q.distance_self, decide_eq_true le_rfl]
  · rw [isClose_of_valid hreg hf ha ha hm hm, M.norm_sub_self, zero_mul, decide_eq_true le_rfl]

/-- **The triangle inequality.** -/
theorem isClose_trans (ha : a.Regular) (hb : b.Regular) (hc : c.Regular) (hl : a.Valid f l L)
    (hm : b.Valid f m M) (hn : c.Valid f n N) {s t : ℝ} (hab : ctx.isClose s a b = .ok true)
    (hbc : ctx.isClose t b c = .ok true) : ctx.isClose (s + t) a c = .ok true := by
  -- quaternions by the distance up to sign, all others by the distance of matrices
  by_cases hf : f = .quaternion
  · obtain ⟨p, hp, rfl⟩ := hl.encodes.exists_unit hf
    obtain ⟨q, hq, rfl⟩ := hm.encodes.exists_unit hf
    obtain ⟨r, hr, rfl⟩ := hn.encodes.exists_unit hf
    rw [isClose_of_valid_units hf ha hb hl hm hp hq] at hab
    rw [isClose_of_valid_units hf hb hc hm hn hq hr] at hbc
    rw [isClose_of_valid_units hf ha hc hl hn hp hr]
    simp only [Except.ok.injEq, decide_eq_true_eq] at hab hbc ⊢
    exact (p.distance_triangle q r).trans (add_le_add hab hbc)
  · rw [isClose_of_valid hreg hf ha hb hl hm] at hab
    rw [isClose_of_valid hreg hf hb hc hm hn] at hbc
    rw [isClose_of_valid hreg hf ha hc hl hn]
    simp only [Except.ok.injEq, decide_eq_true_eq, add_mul] at hab hbc ⊢
    exact (L.norm_sub_triangle M N).trans (add_le_add hab hbc)

/-! ## Signs -/

/-- **Signs.** A quaternion and its negative are as close to any element. -/
theorem isClose_neg (ha : a.Regular) (ha' : a'.Regular) (hb : b.Regular)
    (hf : a.cls.family = .quaternion) (hf' : a'.cls.family = .quaternion)
    (hq : a.held.datum.numbers? = some q.toGrid) (hq' : a'.held.datum.numbers? = some (-q).toGrid)
    (tol : ℝ) : ctx.isClose tol a' b = ctx.isClose tol a b := by
  have htag : a'.cls.tag = a.cls.tag := by rw [ha.cls, ha'.cls, hf, hf']
  unfold isClose
  rw [htag, hf, hf']
  by_cases hcls : a.cls.tag = b.cls.tag ∧ Family.quaternion = .quaternion
  · -- both are quaternions, and so is the third: the comparison is up to sign
    have hfits := hb.fits
    rw [← ha.cls.family_eq hb.cls hcls.1, hf] at hfits
    have hnumbers : a.held.datum.numbers = .ok q.toGrid := by simp only [Datum.numbers, hq]
    have hnumbers' : a'.held.datum.numbers = .ok (-q).toGrid := by simp only [Datum.numbers, hq']
    rw [if_pos hcls, if_pos hcls, hnumbers, hnumbers']
    obtain hsymbols | ⟨n, hn, hshape⟩ := hfits.numbers_cases
    · rw [hsymbols]
      rfl
    · rw [hn]
      exact Grid.isCloseUpToSign_neg tol q hshape
  · -- the third is not: the two have one matrix
    have hmatrix : a.cls.family.HasMatrix q.toGrid q.toMat3 := hf ▸ .quaternion q
    have hmatrix' : a'.cls.family.HasMatrix (-q).toGrid q.toMat3 :=
      hf' ▸ q.toMat3_neg ▸ .quaternion (-q)
    obtain ⟨k, hk, hnumbers⟩ := numbers_of_rotationMatrix hreg ha hq hmatrix
    obtain ⟨k', hk', hnumbers'⟩ := numbers_of_rotationMatrix hreg ha' hq' hmatrix'
    rw [if_neg hcls, if_neg hcls, hk, hk']
    simp only [hnumbers, hnumbers', bind, Except.bind]

end Builtin

end Context

end Attitude
