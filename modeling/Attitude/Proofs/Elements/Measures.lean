import Attitude.Proofs.Elements.Checks
import Attitude.Proofs.Scalar.Comparisons

/-!
# What the checks of doubles accept

A check compares the magnitudes by which a matrix misses what it should be with a tolerance, and
refuses the matrix if the comparison holds. No comparison holds with a double that is no number, so
the check accepts the matrix if all magnitudes are within the tolerance, and also if one of them is
no number (`Double.Passes`). The magnitudes are computed from the entries, so one of them may be no
number although every entry is finite.
-/

namespace Attitude

/-- All of the magnitudes are within the tolerance, or one of them is no number. -/
def Double.Passes (tol : Float) (xs : List Float) : Prop :=
  (∃ a ∈ xs, Ground.isNumber a = false) ∨ ∀ a ∈ xs, Ground.le a tol = true

namespace Mat3

variable {tol : Float} (htol : Ground.isNumber tol = true) (m : Mat3 Float)
include htol

/-- The check of rotations has two parts: the product of the transpose with the matrix, and the
determinant. -/
theorem isRotation_iff_passes : m.isRotation tol = true ↔
    Double.Passes tol m.orthogonalDefects ∧
      Double.Passes tol [FieldOps.abs (m.det - lit 1)] := by
  have hdeterminant (a : Float) :
      Double.Passes tol [a] ↔ Ground.isNumber a = false ∨ Ground.le a tol = true := by
    simp only [Double.Passes, List.mem_singleton, exists_eq_left, forall_eq]
  rw [isRotation, Bool.and_eq_true, Bool.not_eq_true', Bool.not_eq_true',
    Double.exceeds_eq_false_iff htol, Double.lt_eq_false_iff htol, hdeterminant]
  rfl

omit htol in
/-- An infinite entry makes the product no number, but a pivot of the matrix is zero, so its
determinant is zero and the matrix is refused. -/
example : isRotation (lit 1 / lit 1000000) ⟨Double.infinity, lit 0, lit 0, lit 0, lit 1, lit 0,
    lit 0, lit 0, lit 0⟩ = false := by decide +kernel

/-- The check of symmetry, by the sums across the diagonal. -/
theorem isSkew_iff_passes :
    m.isSkew tol = true ↔ Double.Passes tol (m.skewDefect.map FieldOps.abs).toList := by
  rw [isSkew, Bool.not_eq_true', Double.exceeds_eq_false_iff htol]
  rfl

end Mat3

/-! ## The matrix of numbers -/

variable {α : Type} [Ground α]

namespace Context

variable {ctx : Context α} {h : Held α} {c : ConcreteClass}
  (hreg : ctx.registry = Catalog.builtinRegistry) (hc : c.Regular)
include hreg hc

/-- The matrix of a rotation matrix is its data. -/
theorem toCanonical_of_matrix (hf : c.family = .matrix) {R : Mat3 α}
    (hR : h.datum = .numeric R.toGrid) :
    ∃ k, ctx.toCanonical h c.key = .ok k ∧ k.datum.numbers? = some R.toGrid := by
  have hlink : ctx.registry.canonicalLink .toCanonical c.key = .ok .copy := by
    rw [hc.key_eq, hreg, hf]
    rfl
  refine ⟨h.copy, ?_, ?_⟩
  · unfold toCanonical
    rw [hlink]
    rfl
  · show h.datum.numbers? = _
    rw [hR]
    rfl

/-- The matrix of a quaternion, in whatever scalars. -/
theorem toCanonical_of_quaternion (hf : c.family = .quaternion) {q : Quaternion α}
    (hq : h.datum = .numeric q.toGrid) :
    ∃ k, ctx.toCanonical h c.key = .ok k ∧ k.datum.numbers? = some q.toMat3.toGrid := by
  have hlink : ctx.registry.canonicalLink .toCanonical c.key =
      .ok (.rule .quaternionToMatrix) := by
    rw [hc.key_eq, hreg, hf]
    rfl
  obtain ⟨k, hk, -, hdatum⟩ := ctx.settings.applyFormula_numeric (f := .quaternionToMatrix) nofun
    nofun rfl hq (n := q.toMat3.toGrid) rfl
  refine ⟨k, ?_, hdatum ▸ rfl⟩
  unfold toCanonical
  rw [hlink]
  exact hk

end Context

/-! ## The vector of a matrix -/

/-- A formula that answers its argument leaves the constants of data as they are. -/
theorem Datum.numbers?_of_apply_self {d e : Datum α} (hd : d.Legible)
    (h : d.apply (fun _ m => .ok m) = .ok e) : e.numbers? = d.numbers? := by
  cases d with
  | numeric m =>
    cases h
    rfl
  | symbolic s =>
    cases h
    obtain ⟨hrows, hcols⟩ := Grid.shape_eq_iff.1 hd
    have hreading : (Symbolic.derived s.slots s).reading = s.reading :=
      (Grid.map_ofFn _ _ _ _).trans (Symbolic.ofFn_lookup _ hrows hcols)
    simp only [numbers?, Symbolic.numbers?, hreading]

namespace Settings

variable {s : Settings α} {h : Held α} {X : Mat3 α}

/-- The check of a skew-symmetric matrix looks at the matrix itself. -/
theorem checkSkew_vee_eq_ite (hs : s.checks = true) (hh : h.datum.Legible)
    (hX : h.datum.numbers? = some X.toGrid) : s.checkSkew .vee h.datum =
      if X.isSkew s.validityTol then .ok () else .error .notSkew := by
  have happly : ∃ e, h.datum.apply (fun _ m => .ok m) = .ok e := by
    cases h.datum <;> exact ⟨_, rfl⟩
  obtain ⟨e, he⟩ := happly
  simp only [checkSkew, hs, Formula.skewInput?]
  show (h.datum.apply (fun _ m => .ok m) >>= _) = _
  rw [he]
  simp only [bind, Except.bind, Datum.numbers?_of_apply_self hh he, hX]
  rfl

/-- Constants are turned into a vector if the check accepts them. -/
theorem applyFormula_vee_eq_ite (hs : s.checks = true) (hh : h.datum.Legible)
    (hX : h.datum.numbers? = some X.toGrid) : ∃ k, s.applyFormula .vee h =
      if X.isSkew s.validityTol then .ok k else .error .notSkew := by
  have hshape : h.datum.shape = [3, 3] := (hh.shape_of_numbers? hX).symm
  have htakes : Transform.Takes (Formula.vee.transform s.eps) [3, 3] [3, 1] :=
    fun _ _ hm => Formula.shaped_of_shape Grid.toMat3?_of_shape (fun _ => by rfl) hm
  obtain ⟨d, hd, -⟩ := Datum.apply_of_takes htakes hshape
  rw [applyFormula_eq (f := .vee) nofun nofun, hd, checkSkew_vee_eq_ite hs hh hX]
  refine ⟨⟨⟨d, Formula.vee.understood h.sheet.understood⟩, none⟩, ?_⟩
  split <;> rfl

end Settings

end Attitude
