import Attitude.Proofs.Elements.Acceptance
import Attitude.Proofs.Elements.Rotations
import Attitude.Proofs.Rotation.PrincipalVector

/-!
# The exponential of an element

The element of a rotation vector has the data that the links of a chain make of the vector, which
depends on the family: matrices, quaternions and parameters have one formula, Euler angles go
through the matrix, and a rotation vector is copied. Whatever the encoding is, the logarithm of that
data is the principal vector (`Family.returns_principal`), and of a rotation vector it is the
vector itself.

The data is numbers, and it is taken under every setting of the checks that leaves room for the
defect of the exponential (`Context.exp_of_numbers`).
-/

namespace Attitude

open Asking

/-! ## Chains of numbers -/

namespace Family

/-- The links from a rotation vector to the data of a family. -/
def expLinks : Family → List (Link Formula)
  | matrix => [.rule .rotationVectorToMatrix]
  | quaternion => [.rule .quaternionOfRotationVector]
  | rotationVector => [.copy]
  | euler => [.rule .rotationVectorToMatrix, .rule .eulerOfMatrix]
  | rodrigues => [.rule .rodriguesOfRotationVector]

/-- From rotation vectors there is a direct rule, or the two legs. -/
theorem resolve_expLinks (f : Family) : ∃ kind, Catalog.builtinRegistry.resolve
    (.tag .rotationVector) (.tag f.tag) = .ok ⟨kind, f.expLinks⟩ := by
  cases f <;> exact ⟨_, rfl⟩

/-- The data of a family for a rotation vector. -/
noncomputable def exponential (eps : ℝ) (f : Family) (m : Grid ℝ) : Except Fault (Grid ℝ) :=
  f.expLinks.foldlM (Link.onNumbers eps) m

/-- The exponential of `v` is numbers, which stand for a rotation up to 1e-27 and have `w` for their
logarithm. -/
def Returns (eps : ℝ) (f : Family) (v w : Vec3 ℝ) : Prop :=
  ∃ m R, f.exponential eps v.toGrid = .ok m ∧ f.HasMatrix m R ∧ R.NearRotation (1 / 10 ^ 27) ∧
    f.logarithm eps m = .ok w.toGrid

/-- A rotation vector is copied there and back. -/
theorem returns_of_rotationVector (eps : ℝ) (v : Vec3 ℝ) : Returns eps rotationVector v v :=
  ⟨_, _, rfl, .rotationVector v, RotationVector.near_toMat3 v, rfl⟩

/-- **Principal vectors.** Whatever encoding stands between, the principal vector returns. -/
theorem returns_principal {f : Family} (hf : f ≠ rotationVector) {eps : ℝ} (heps : eps ≤ 1 / 2500)
    {v : Vec3 ℝ} (hv : v.Generic)
    (heuler : f = euler → |(RotationVector.toMat3 v).zx| ≤ 1 - EulerAngles.gimbalTolerance) :
    f.Returns eps v v.principal := by
  have hnonneg : (0 : ℝ) ≤ 1 / 10 ^ 27 := by positivity
  have hlong := hv.long
  cases f with
  | rotationVector => exact absurd rfl hf
  | matrix =>
    refine ⟨_, _, rfl, .matrix _, RotationVector.near_toMat3 v, ?_⟩
    rw [← hv.ofMat3_toMat3]
    rfl
  | quaternion =>
    -- no series comes in: the half angle is not near zero
    have hunit := Quaternion.isUnit_ofRotationVector (.inr hlong)
    refine ⟨_, _, rfl, .quaternion _, hunit.isRotation.near hnonneg, ?_⟩
    rw [← hv.toRotationVector_quaternion heps]
    rfl
  | euler =>
    have hrotation := RotationVector.isRotation_of_far (v := v) (by linarith)
    -- outside of the band the angles have the matrix of the vector
    have hangles := EulerAngles.toMat3_ofMat3 hrotation (heuler rfl)
    refine ⟨_, _, rfl, .euler _, (EulerAngles.isRotation_toMat3 _).near hnonneg, ?_⟩
    rw [← hv.ofMat3_toMat3]
    conv_rhs => rw [← hangles]
    rfl
  | rodrigues =>
    refine ⟨_, _, rfl, .rodrigues _, (Rodrigues.isRotation_toMat3 _).near hnonneg, ?_⟩
    rw [← hv.toRotationVector_rodrigues heps]
    rfl

end Family

/-! ## Conversions of numbers -/

namespace Settings

variable {s : Settings ℝ} {h k : Held ℝ} {m : Grid ℝ}

/-- A chain of links makes numbers of numbers. -/
theorem numeric_of_applyRoute {r : Route Formula} (hm : h.datum = .numeric m)
    (hk : s.applyRoute r h = .ok k) :
    ∃ n, k.datum = .numeric n ∧ r.links.foldlM (Link.onNumbers s.eps) m = .ok n := by
  have hvalue := value_of_applyRoute (σ := fun _ => 0) hk
  have hnumeric : ∃ n, k.datum = .numeric n := by
    clear hvalue
    unfold applyRoute at hk
    generalize r.links = ls at hk
    -- on the links that are left, with the data they start from
    induction ls generalizing h m with
    | nil =>
      cases hk
      exact ⟨m, hm⟩
    | cons l ls ih =>
      rw [List.foldlM_cons] at hk
      obtain ⟨h', hh', hk⟩ := exists_of_bind_eq_ok hk
      obtain ⟨m', hm'⟩ := numeric_of_applyLink hm hh'
      exact ih hm' hk
  obtain ⟨n, hn⟩ := hnumeric
  rw [hm, hn] at hvalue
  exact ⟨n, hn, hvalue⟩

/-- Settings under which a rotation up to 1e-27 is taken. -/
def Tolerant (s : Settings ℝ) : Prop := s.checks = false ∨ 1 / 10 ^ 27 ≤ s.validityTol

/-- Settings that take what is nearly a rotation take what is exactly skew-symmetric. -/
theorem Tolerant.lenient (hs : s.Tolerant) : s.Lenient := by
  refine hs.imp_right fun htol => ?_
  rw [Ground.le_iff, lit_zero]
  exact le_trans (by positivity) htol

end Settings

/-- The class of a family that exists from the start. -/
def Family.elementClass : Family → ElementClass
  | .matrix => .matrix
  | .quaternion => .quaternion
  | .rotationVector => .rotationVector
  | .euler => .euler
  | .rodrigues => .rodrigues

/-- The class of the elements of a family. -/
def Family.concreteClass (f : Family) : ConcreteClass := ⟨f.elementClass.name, f, some f.tag⟩

theorem Family.concrete_elementClass (f : Family) :
    f.elementClass.concrete = .ok f.concreteClass := by
  cases f <;> rfl

/-- The class of a family is found by its tag. -/
theorem Family.key_elementClass (f : Family) : f.elementClass.key = .tag f.tag := by
  cases f <;> rfl

namespace Context

variable {ctx : Context ℝ} (hreg : ctx.registry = Catalog.builtinRegistry) {f g : Family}
  {h : Held ℝ} {m n : Grid ℝ} {v w : Vec3 ℝ}
include hreg

/-- Numbers of one family are converted to numbers of another, along the links between them. -/
theorem convert_of_numbers (hs : ctx.settings.Lenient) {route : Route Formula}
    (hroute : Catalog.builtinRegistry.resolve (.tag f.tag) (.tag g.tag) = .ok route)
    (hh : h.datum = .numeric m) (hm : m.shape = f.shape)
    (hn : route.links.foldlM (Link.onNumbers ctx.settings.eps) m = .ok n) :
    Fulfils ctx.registry (fun _ => False) (fun k => k.home = none ∧ k.datum = .numeric n)
      (ctx.convert h (.tag f.tag) (.tag g.tag)) := by
  obtain ⟨route', hroute', htakes⟩ := f.resolve g
  obtain rfl : route' = route := Except.ok.inj (hroute'.symm.trans hroute)
  have hfits : h.datum.Fits f.shape := by
    rw [hh]
    exact ⟨hm, trivial⟩
  rw [← hreg] at hroute
  refine .bind (.route ctx (.of_eq_ok hroute rfl)) fun r hr => .lift ?_
  -- every route that is told is the one of the tables
  subst hr
  refine (Settings.applyRoute_new htakes hfits).with_answer.mono
    (fun _ => hs.not_refuses _) fun k hk => ⟨hk.1.home, ?_⟩
  obtain ⟨n', hn', hvalue⟩ := Settings.numeric_of_applyRoute hh hk.2
  rw [hn', ← Except.ok.inj (hn.symm.trans hvalue)]

variable (hs : ctx.settings.Tolerant)
include hs

/-- The element of a rotation vector of numbers is made, and has the exponential for its data. -/
theorem exp_of_numbers (hh : h.datum = .numeric v.toGrid) (hf : f.Returns ctx.settings.eps v w) :
    Fulfils ctx.registry (fun _ => False) (fun p => p.1 = f.concreteClass ∧ p.2.home = none ∧
      ∃ m, p.2.datum = .numeric m ∧ m.shape = f.shape ∧
        f.logarithm ctx.settings.eps m = .ok w.toGrid)
      (ctx.exp f.elementClass h) := by
  obtain ⟨m, R, hexp, hR, hnear, hlog⟩ := hf
  obtain ⟨kind, hroute⟩ := f.resolve_expLinks
  have hshape : h.datum.shape = [3, 1] := by
    rw [hh]
    rfl
  have hregular : f.concreteClass.Regular := rfl
  unfold exp
  rw [if_neg (not_not_intro hshape), f.key_elementClass]
  refine .bind (convert_of_numbers hreg hs.lenient (f := .rotationVector) hroute hh rfl hexp)
    fun k ⟨_, hk⟩ => .read_ok f.concrete_elementClass ?_
  -- the data is a rotation up to the tolerance, so the check does not refuse it
  have htaken : ctx.takeData f.concreteClass k = .ok k.copy := by
    apply takeData_of_near hreg hregular (m := m) (R := R)
    · rw [hk]
      trivial
    · rw [hk]
      rfl
    · exact hR
    · exact hs.imp_right hnear.mono
  exact .read_ok htaken (.pure ⟨rfl, rfl, m, hk, hR.shape, hlog⟩)

/-- The logarithm of an element with numbers for its data is numbers. -/
theorem log_of_numbers (hh : h.datum = .numeric m) (hm : m.shape = f.shape)
    (hlog : f.logarithm ctx.settings.eps m = .ok w.toGrid) :
    Fulfils ctx.registry (fun _ => False) (fun k => k.datum = .numeric w.toGrid)
      (ctx.log ⟨f.concreteClass, h⟩) := by
  obtain ⟨kind, hroute⟩ := f.resolve_logLinks
  exact (convert_of_numbers hreg hs.lenient (g := .rotationVector) hroute hh hm hlog).mono
    (fun _ => id) fun _ hk => hk.2

end Context

end Attitude
