import Attitude.Proofs.Rotation.Adjoint
import Attitude.Proofs.Session.Exponentials
import Attitude.Proofs.Session.Refinement

/-!
# The adjoint in a session

The adjoint of an element is its rotation matrix, and a session answers it for every valid element,
whatever the encoding and the settings are. It acts on vectors, and both maps between vectors and
skew-symmetric matrices are steps of a session, too. The second one refuses a matrix that is not
skew-symmetric where checks are on, but only under a negative tolerance one that is.
-/

namespace Attitude

open Asking

namespace Settings

variable {s : Settings ℝ} {h : Held ℝ} {m : Mat3 ℝ}

/-- A skew-symmetric matrix passes the check under every tolerance that is not negative. -/
theorem checkSkew_vee (hs : s.Lenient) (hm : m.IsSkewSymmetric) :
    s.checkSkew .vee (.numeric m.toGrid) = .ok () := by
  obtain hoff | htol := hs
  · exact checkSkew_of_unchecked hoff _ _
  · -- the matrix has no defect, and a defect of zero is within the tolerance
    have hskew : m.isSkew s.validityTol = true := by
      rw [Ground.le_iff, lit_zero] at htol
      rw [Mat3.isSkew, show m.skewDefect = _ from hm, Bool.not_eq_true', ← Bool.not_eq_true,
        Mat3.exceeds_iff]
      simpa [Mat3.toList, Mat3.map, abs_eq] using htol
    cases hchecks : s.checks with
    | false => exact checkSkew_of_unchecked hchecks _ _
    | true =>
      simp only [checkSkew, hchecks, Formula.skewInput?]
      exact if_pos hskew

/-- The vector of a skew-symmetric matrix is answered whatever the checks are: a difference of zero
exceeds no tolerance that is at least zero. -/
theorem applyFormula_vee (hs : s.Lenient) (hm : m.IsSkewSymmetric)
    (hh : h.datum = .numeric m.toGrid) :
    ∃ k, s.applyFormula .vee h = .ok k ∧ k.datum = .numeric m.vee.toGrid := by
  rw [applyFormula_eq (f := .vee) nofun nofun, hh, checkSkew_vee hs hm]
  exact ⟨_, rfl, rfl⟩

end Settings

namespace Session

variable {s : Session ℝ} {x : Argument ℝ} {h : Held ℝ} {v : Vec3 ℝ} {m : Mat3 ℝ}

/-- A step that shows a new matrix answers it. -/
theorem step_of_newMatrix {x : Step ℝ} {d : String}
    (hs : s.router.Coherent s.world.catalog.registry)
    (hP : Fulfils s.world.catalog.registry (fun _ => False) (· = .newMatrix d h)
      (s.world.plan x)) : (s.step x).1 = .ok (.matrix h.datum.shown) := by
  obtain ⟨p, r, rfl, -, hstep⟩ := step_of_fulfils hs hP
  rw [hstep]
  rfl

/-- The adjoint of an element with data of a rotation is answered, and it is the rotation. -/
theorem Regular.step_rotationMatrix (hs : s.Regular) {r : String} {a : Subject ℝ}
    (ha : s.world.store.named r = .ok a) {σ : String → ℝ} {R : Mat3 ℝ}
    (hR : a.cls.family.Encodes (a.held.datum.value σ) R) (d : String) :
    ∃ h, s.world.rotationOf r = .ok h ∧ h.datum.value σ = R.toGrid ∧
      (s.step (.rotationMatrix d r)).1 = .ok (.matrix h.datum.shown) := by
  have hreg : s.world.context.registry = Catalog.builtinRegistry := hs.world.catalog.registry
  have hregular := hs.world.store.named ha
  obtain ⟨h, hh, hvalue⟩ :=
    Context.toCanonical_value hreg hregular.cls hregular.fits hR.hasMatrix
  -- looking up the element and converting its data is all that is asked
  have hrotation : s.world.rotationOf r = .ok h := by
    show s.world.store.named r >>= _ = _
    rw [ha]
    exact hh
  exact ⟨h, hrotation, hvalue, step_of_newMatrix (d := d) hs.coherent
    (.read_ok ha (.read_ok hh (.pure rfl)))⟩

/-- A step answers the skew-symmetric matrix of a vector. -/
theorem Regular.step_hat (hs : s.Regular) (hx : s.world.matrixOf x = .ok h)
    (hh : h.datum = .numeric v.toGrid) (d : String) :
    (s.step (.hat d x)).1 = .ok (.matrix (Datum.numeric v.hat.toGrid).shown) := by
  obtain ⟨k, hk, -, hdatum⟩ := s.world.settings.applyFormula_numeric (f := .hat) nofun nofun rfl hh
    (n := v.hat.toGrid) rfl
  rw [← hdatum]
  exact step_of_newMatrix (d := d) hs.coherent (.read_ok hx (.read_ok hk (.pure rfl)))

/-- A step answers the vector of a skew-symmetric matrix. -/
theorem Regular.step_vee (hs : s.Regular) (hlenient : s.world.settings.Lenient)
    (hx : s.world.matrixOf x = .ok h) (hh : h.datum = .numeric m.toGrid)
    (hm : m.IsSkewSymmetric) (d : String) :
    (s.step (.vee d x)).1 = .ok (.matrix (Datum.numeric m.vee.toGrid).shown) := by
  obtain ⟨k, hk, hdatum⟩ := Settings.applyFormula_vee hlenient hm hh
  rw [← hdatum]
  exact step_of_newMatrix (d := d) hs.coherent (.read_ok hx (.read_ok hk (.pure rfl)))

/-- **The adjoint.** After a run that keeps the tables, the adjoint of an element of a rotation is
answered. It moves a vector as conjugation moves the skew-symmetric matrix of the vector, and the
exponential goes along, near zero and elsewhere, without an undefined quotient. The commutator of
skew-symmetric matrices is the product of the first one with the vector of the second. Vectors and
skew-symmetric matrices go over into each other, and both maps are answered. -/
theorem adjoint_of_run (settings : Settings ℝ) (xs : List (Step ℝ))
    (hxs : ∀ x ∈ xs, x.KeepsTables) :
    let s := ((⟨{ settings := settings }, {}⟩ : Session ℝ).run xs).2
    (∀ (r d : String) (a : Subject ℝ) (σ : String → ℝ) (R : Mat3 ℝ),
      s.world.store.named r = .ok a → a.cls.family.Encodes (a.held.datum.value σ) R →
      (∃ h, s.world.rotationOf r = .ok h ∧ h.datum.value σ = R.toGrid ∧
        (s.step (.rotationMatrix d r)).1 = .ok (.matrix h.datum.shown)) ∧
      ∀ v : Vec3 ℝ, (R.mulVec v).hat = R * v.hat * R.transpose ∧
        RotationVector.toMat3 (R.mulVec v) = R * RotationVector.toMat3 v * R.transpose) ∧
    (∀ v w : Vec3 ℝ, (v.hat * w.hat - w.hat * v.hat).vee = v.hat.mulVec w) ∧
    (∀ v : Vec3 ℝ, v.hat.IsSkewSymmetric ∧ v.hat.vee = v ∧
      RotationVector.toMat3 (v.map Partial.value) = (RotationVector.toMat3 v).map Partial.value) ∧
    (∀ m : Mat3 ℝ, m.IsSkewSymmetric → m.vee.hat = m) ∧
    ∀ (x : Argument ℝ) (h : Held ℝ) (d : String), s.world.matrixOf x = .ok h →
      (∀ v : Vec3 ℝ, h.datum = .numeric v.toGrid →
        (s.step (.hat d x)).1 = .ok (.matrix (Datum.numeric v.hat.toGrid).shown)) ∧
      (s.world.settings.Lenient → ∀ m : Mat3 ℝ, h.datum = .numeric m.toGrid →
        m.IsSkewSymmetric →
        (s.step (.vee d x)).1 = .ok (.matrix (Datum.numeric m.vee.toGrid).shown)) := by
  intro s
  have hs : s.Regular := regular_run settings xs hxs
  refine ⟨fun r d a σ R ha hR => ⟨hs.step_rotationMatrix ha hR d, fun v => ?_⟩,
    fun v w => Mat3.vee_commutator v w,
    fun v => ⟨Mat3.isSkewSymmetric_hat v, v.vee_hat, RotationVector.toMat3_value v⟩,
    fun m hm => hm.hat_vee, fun x h d hx => ⟨fun v hh => hs.step_hat hx hh d, ?_⟩⟩
  · exact ⟨hR.isRotation.hat_mulVec v, hR.isRotation.toMat3_mulVec v⟩
  · exact fun hlenient m hh hm => hs.step_vee hlenient hx hh hm d

/-- The matrix of a quaternion moves a vector, its skew-symmetric matrix and its exponential alike.
-/
theorem adjoint_after_loweredRun :
    (∀ x ∈ loweredRun, x.KeepsTables) ∧
      let s := ((⟨{ settings := .initial }, {}⟩ : Session ℝ).run loweredRun).2
      let R := lower.toMat3
      let v : Vec3 ℝ := ⟨1, 2, 3⟩
      (∃ (a : Subject ℝ) (h : Held ℝ), s.world.store.named "a" = .ok a ∧
        a.cls.family.Encodes (a.held.datum.value fun _ => 0) R ∧
        (s.step (.rotationMatrix "m" "a")).1 = .ok (.matrix h.datum.shown) ∧
        h.datum.value (fun _ => 0) = R.toGrid) ∧
      (R.mulVec v).hat = R * v.hat * R.transpose ∧
      RotationVector.toMat3 (R.mulVec v) = R * RotationVector.toMat3 v * R.transpose ∧
      s.world.settings.Lenient ∧ v.hat.IsSkewSymmetric ∧ v.hat.vee.hat = v.hat ∧
      (s.step (.hat "x" (.data (.ok v.toGrid)))).1 =
        .ok (.matrix (Datum.numeric v.hat.toGrid).shown) ∧
      (s.step (.vee "w" (.data (.ok v.hat.toGrid)))).1 =
        .ok (.matrix (Datum.numeric v.toGrid).shown) := by
  obtain ⟨hadjoint, -, hskew, hback, hmaps⟩ := adjoint_of_run .initial loweredRun
    keepsTables_loweredRun
  obtain ⟨⟨h, -, hvalue, hanswer⟩, hmoved⟩ :=
    hadjoint "a" "m" _ (fun _ => 0) lower.toMat3 rfl encodes_lower
  obtain ⟨hhat, hexp⟩ := hmoved ⟨1, 2, 3⟩
  obtain ⟨hv, -⟩ := hskew ⟨1, 2, 3⟩
  refine ⟨keepsTables_loweredRun, ⟨_, h, rfl, encodes_lower, hanswer, hvalue⟩, hhat, hexp,
    .inl rfl, hv, hback _ hv, ?_, ?_⟩
  · exact (hmaps (.data (.ok _)) _ "x" rfl).1 ⟨1, 2, 3⟩ rfl
  · exact (hmaps (.data (.ok _)) _ "w" rfl).2 (.inl rfl) (Vec3.hat ⟨1, 2, 3⟩) rfl hv

end Session

end Attitude
