import Attitude.Proofs.Elements.Acceptance
import Attitude.Proofs.Rotation.Distances
import Attitude.Proofs.Session.Logarithms

/-!
# Taking data in a session with checks

What data an element takes after any run that keeps the tables of conversions, with checks on and a
tolerance that covers the defect of the exponential (`acceptance_of_run`). Euler angles, parameters
and rotation vectors are never refused. A quaternion of numbers is refused exactly if the fourth or
the sixth power of its length is too far from one.
-/

namespace Attitude

open Asking

namespace Session

/-- Giving data to an element answers the data that its class takes. -/
theorem answer_of_setData {α : Type} [Ground α] {s : Session α} {a : String} {x : Argument α}
    {b : Subject α} {h : Held α} (hb : s.world.store.named a = .ok b)
    (hx : s.world.matrixOf x = .ok h) : (s.step (.setData a x)).1 =
      (s.world.context.takeData b.cls h).map fun k => .element b.cls.name k.datum.shown := by
  obtain ⟨e, he, hb⟩ := exists_of_bind_eq_ok hb
  have hplan : (s.world.plan (.setData a x)).run s.router =
      ((s.world.context.takeData b.cls h).map (.newData e b.cls), s.router) := by
    simp only [World.plan, run_bind, run_lift, he, hb, hx]
    cases s.world.context.takeData b.cls h <;> rfl
  unfold step
  rw [hplan]
  cases s.world.context.takeData b.cls h <;> rfl

/-- **Acceptance.** The matrices of Euler angles and of parameters are rotations; the matrix of a
rotation vector is one exactly if the vector is zero or at least a thousandth long, and one up to
1e-27 in any case; and for a quaternion the product of the transpose with the matrix is the identity
times the fourth power of the length, and the determinant the sixth power.

So after a run that keeps the tables, with checks on and a tolerance of 1e-27 or more, no three
entries are refused as Euler angles, parameters or a rotation vector. A quaternion of numbers is
refused if one of the two powers is too far from one, and taken otherwise. -/
theorem acceptance_of_run (settings : Settings ℝ) (xs : List (Step ℝ))
    (hxs : ∀ x ∈ xs, x.KeepsTables) :
    (∀ e : EulerAngles ℝ, e.toMat3.IsRotation) ∧
    (∀ r : Vec3 ℝ, (Rodrigues.toMat3 r).IsRotation) ∧
    (∀ v : Vec3 ℝ, ((RotationVector.toMat3 v).IsRotation ↔ v.norm = 0 ∨ 1 / 1000 ≤ v.norm) ∧
      (RotationVector.toMat3 v).NearRotation (1 / 10 ^ 27)) ∧
    (∀ q : Quaternion ℝ, q.toMat3.transpose * q.toMat3 = Mat3.smul (q.norm ^ 4) 1 ∧
      q.toMat3.determinant = q.norm ^ 6) ∧
    let s := ((⟨{ settings := settings }, {}⟩ : Session ℝ).run xs).2
    let tol := s.world.settings.validityTol
    s.world.settings.checks = true → 1 / 10 ^ 27 ≤ tol →
    ∀ (a : String) (x : Argument ℝ) (b : Subject ℝ) (h : Held ℝ),
      s.world.store.named a = .ok b → s.world.matrixOf x = .ok h →
      let answer := (s.step (.setData a x)).1
      (b.cls.family.Total → h.datum.shape = [3, 1] →
        answer = .ok (.element b.cls.name h.datum.shown)) ∧
      (b.cls.family = .quaternion →
        (∀ q : Quaternion ℝ, h.datum.numbers? = some q.toGrid →
          answer = if tol < |q.norm ^ 4 - 1| ∨ tol < |q.norm ^ 6 - 1|
            then .error (.notRotation b.cls.name)
            else .ok (.element b.cls.name h.datum.shown)) ∧
        (h.datum.numbers? = none → h.datum.shape = [4, 1] →
          answer = .ok (.element b.cls.name h.datum.shown))) := by
  -- the powers of the norm are powers of its square, which needs no root
  have hpowers (q : Quaternion ℝ) : q.norm ^ 4 = q.normSq ^ 2 ∧ q.norm ^ 6 = q.normSq ^ 3 := by
    rw [← q.norm_sq]
    constructor <;> ring
  refine ⟨fun e => e.isRotation_toMat3, fun r => Rodrigues.isRotation_toMat3 r, fun v =>
    ⟨RotationVector.isRotation_toMat3_iff, RotationVector.near_toMat3 v⟩, fun q => ?_, ?_⟩
  · rw [(hpowers q).1, (hpowers q).2, q.transpose_mul_toMat3, q.determinant_toMat3]
    constructor
    · rw [pow_two]
    · ring
  intro s tol hchecks htol a x b h hb hx answer
  have hs : s.Regular := regular_run settings xs hxs
  have hreg : s.world.context.registry = Catalog.builtinRegistry := hs.world.catalog.registry
  have hc : b.cls.Regular := (hs.world.store.named hb).cls
  have hh : h.datum.Legible := hs.world.matrixOf hx
  -- the step answers what taking the data answers
  have hanswer : answer = (s.world.context.takeData b.cls h).map fun k =>
      .element b.cls.name k.datum.shown := answer_of_setData hb hx
  have htaken (hk : s.world.context.takeData b.cls h = .ok h.copy) :
      answer = .ok (.element b.cls.name h.datum.shown) := by
    rw [hanswer, hk]
    rfl
  constructor
  · -- every vector is the data of some matrix near a rotation
    intro htotal hshape
    have hfamily : b.cls.family.shape = [3, 1] := htotal.shape
    have hfits : h.datum.Fits b.cls.family.shape := ⟨hshape.trans hfamily.symm, hh⟩
    exact htaken (Context.takeData_of_total hreg hchecks hc hfits htotal htol)
  · -- a quaternion may be of any length, so numbers are tested and symbols are not
    intro hf
    refine ⟨fun q hq => ?_, fun hsymbols hshape => htaken ?_⟩
    · rw [hanswer, Context.takeData_of_quaternion hreg hchecks hc hh hf hq, (hpowers q).1,
        (hpowers q).2]
      exact apply_ite (Except.map _) _ _ _
    · exact Context.takeData_of_symbols hreg hchecks hc (hshape.trans (hf ▸ rfl)) hsymbols

/-- Checks are switched on, and there is an element to give a rotation vector to and one to give a
quaternion to. -/
def acceptingRun : List (Step ℝ) :=
  [.configure (.checks true), .new "a" "AngleAxis" none, .new "b" "Quat" none]

/-- A vector so short that its matrix comes from the series, and is no rotation. -/
noncomputable def short : Vec3 ℝ := ⟨lit 1 / lit 2000, lit 0, lit 0⟩

/-- A rotation vector is taken although its matrix is no rotation, as it is one up to the tolerance.
A quaternion of length two is refused. -/
theorem accepted_after_acceptingRun :
    (∀ x ∈ acceptingRun, x.KeepsTables) ∧
      let s := ((⟨{ settings := .initial }, {}⟩ : Session ℝ).run acceptingRun).2
      s.world.settings.checks = true ∧ 1 / 10 ^ 27 ≤ s.world.settings.validityTol ∧
      ¬ (RotationVector.toMat3 short).IsRotation ∧
      (s.step (.setData "a" (.data (.ok short.toGrid)))).1 =
        .ok (.element "AngleAxis" (Datum.numeric short.toGrid).shown) ∧
      (s.step (.setData "b" (.data (.ok (⟨2, 0, 0, 0⟩ : Quaternion ℝ).toGrid)))).1 =
        .error (.notRotation "Quat") := by
  have hxs : ∀ x ∈ acceptingRun, x.KeepsTables := by
    simp only [acceptingRun, List.forall_mem_cons]
    exact ⟨trivial, trivial, trivial, List.forall_mem_nil _⟩
  have htol : (1 : ℝ) / 10 ^ 27 ≤ (Settings.initial : Settings ℝ).validityTol := by
    show _ ≤ (lit 1 / lit 1000000 : ℝ)
    norm_num
  obtain ⟨-, -, hvectors, -, hdata⟩ := acceptance_of_run .initial acceptingRun hxs
  refine ⟨hxs, rfl, htol, ?_, ?_, ?_⟩
  · -- the vector is on the branch of the series, so its matrix is no rotation
    have hnorm : short.norm = 1 / 2000 := by
      apply Vec3.norm_of_dot_self (by norm_num)
      simp [Vec3.dot_eq, short]
    rw [(hvectors short).1, hnorm]
    norm_num
  · exact (hdata rfl htol "a" (.data (.ok short.toGrid)) _ _ rfl rfl).1 (.inl rfl) rfl
  · -- the quaternion has length two, and its matrix is sixteen times too large
    have hnorm : (⟨2, 0, 0, 0⟩ : Quaternion ℝ).norm ^ 4 = 16 := by
      rw [show (4 : ℕ) = 2 * 2 from rfl, pow_mul, Quaternion.norm_sq]
      norm_num [Quaternion.normSq]
    have hrefused := hdata rfl htol "b" (.data (.ok (⟨2, 0, 0, 0⟩ : Quaternion ℝ).toGrid)) _ _ rfl
      rfl
    refine ((hrefused.2 rfl).1 _ rfl).trans (if_pos (.inl ?_))
    rw [hnorm]
    show (lit 1 / lit 1000000 : ℝ) < _
    norm_num

end Session

end Attitude
