import Attitude.Proofs.Elements.Acceptance
import Attitude.Proofs.Elements.Rotations
import Attitude.Proofs.Rotation.Draw
import Attitude.Proofs.Rotation.ParameterLogarithm

/-!
# The data of a draw

Five ways lead from a drawn quaternion to the data of an element, one for each family. Matrices,
quaternions and rotation vectors are written at once, Euler angles and parameters are found from the
matrix. All of them stand for the rotation of the quaternion (`Family.hasMatrix_drawn`) and are in
the range of their family (`Family.inRange_drawn`), the rotation vector outside of the angles where
it is a series and Euler angles outside of a gimbal lock.
-/

namespace Attitude

/-! ## Data in range -/

namespace Family

/-- The data of a family is in the range in which a rotation is written: a rotation matrix, a unit
quaternion, at most a half turn, roll and yaw of at most a half turn and a pitch of at most a
quarter turn, or parameters in the unit ball. -/
inductive InRange : Family → Grid ℝ → Prop
  | matrix {R : Mat3 ℝ} (hR : R.IsRotation) : InRange matrix R.toGrid
  | quaternion {q : Quaternion ℝ} (hq : q.IsUnit) : InRange quaternion q.toGrid
  | rotationVector {v : Vec3 ℝ} (hv : v.norm ≤ Real.pi) : InRange rotationVector v.toGrid
  | euler {e : EulerAngles ℝ} (hroll : e.roll ∈ Set.Ioc (-Real.pi) Real.pi)
      (hpitch : e.pitch ∈ Set.Icc (-(Real.pi / 2)) (Real.pi / 2))
      (hyaw : e.yaw ∈ Set.Ioc (-Real.pi) Real.pi) : InRange euler e.toGrid
  | rodrigues {r : Vec3 ℝ} (hr : r.norm ≤ 1) : InRange rodrigues r.toGrid

/-- The data of a family for a drawn quaternion. -/
noncomputable def drawn (f : Family) (q : Quaternion ℝ) : Grid ℝ :=
  match f with
  | matrix => q.toMat3.toGrid
  | quaternion => q.toGrid
  | rotationVector => q.toDrawnRotationVector.toGrid
  | euler => (EulerAngles.ofMat3 q.toMat3).toGrid
  | rodrigues => (Rodrigues.ofMat3 q.toMat3).toGrid

variable {f : Family} {q : Quaternion ℝ} {v : Vec3 ℝ}

/-- Every rotation vector of at most a half turn stands for the rotation, also the opposite one of a
half turn. -/
theorem hasMatrix_of_hasVector (hv : q.HasVector v) (hangle : q.angle = 0 ∨ 1 / 1000 ≤ q.angle) :
    rotationVector.HasMatrix v.toGrid q.toMat3 := by
  rw [← hv.toMat3_eq hangle]
  exact .rotationVector v

/-- A vector of the rotation is at most a half turn long. -/
theorem inRange_of_hasVector (hv : q.HasVector v) : rotationVector.InRange v.toGrid := by
  refine .rotationVector ?_
  rw [hv.norm_eq]
  exact q.angle_le_pi

variable (hq : q.IsUnit)
  (hangle : f = rotationVector → q.angle = 0 ∨ 1 / 1000 ≤ q.angle)
  (hlock : f = euler → |q.toMat3.zx| ≤ 1 - EulerAngles.gimbalTolerance)
include hq hangle hlock

/-- The data stands for the rotation of the quaternion. -/
theorem hasMatrix_drawn : f.HasMatrix (f.drawn q) q.toMat3 := by
  cases f with
  | matrix => exact .matrix q.toMat3
  | quaternion => exact .quaternion q
  | rotationVector =>
    exact hasMatrix_of_hasVector (hq.hasVector_drawn (hangle rfl)) (hangle rfl)
  | euler =>
    have hangles := EulerAngles.toMat3_ofMat3 hq.isRotation (hlock rfl)
    exact hangles ▸ .euler (EulerAngles.ofMat3 q.toMat3)
  | rodrigues =>
    have hparameters := Rodrigues.toMat3_ofMat3 hq.isRotation
    exact hparameters ▸ .rodrigues (Rodrigues.ofMat3 q.toMat3)

/-- The data is in the range of the family. -/
theorem inRange_drawn : f.InRange (f.drawn q) := by
  cases f with
  | matrix => exact .matrix hq.isRotation
  | quaternion => exact .quaternion hq
  | rotationVector =>
    exact inRange_of_hasVector (hq.hasVector_drawn (hangle rfl))
  | euler =>
    unfold drawn
    rw [EulerAngles.ofMat3_eq (hlock rfl)]
    exact .euler (atan2_mem_Ioc _ _) ⟨Real.neg_pi_div_two_le_arcsin _, Real.arcsin_le_pi_div_two _⟩
      (atan2_mem_Ioc _ _)
  | rodrigues =>
    exact .rodrigues (Rodrigues.norm_ofQuaternion_le (Quaternion.isUnit_ofMat3 hq.isRotation))

end Family

/-! ## The matrix of numbers -/

namespace Context

variable {ctx : Context ℝ} (hreg : ctx.registry = Catalog.builtinRegistry)
include hreg

/-- The rotation matrix of an element of numbers is made of the numbers that they stand for. -/
theorem rotationMatrix_of_numbers {a : Subject ℝ} (ha : a.Regular) {m : Grid ℝ} {R : Mat3 ℝ}
    (hm : a.held.datum = .numeric m) (hR : a.cls.family.HasMatrix m R) :
    ∃ k, ctx.rotationMatrix a = .ok k ∧ k.datum = .numeric R.toGrid := by
  have hm' : a.held.datum.numbers? = some m := hm ▸ rfl
  obtain ⟨k, hk, hnumbers⟩ := numbers_of_toCanonical hreg ha.cls ha.fits hm' hR
  obtain ⟨n, hn⟩ := numeric_of_toCanonical hm hk
  rw [hn] at hnumbers
  exact ⟨k, hk, hn.trans (congrArg Datum.numeric (Option.some.inj hnumbers))⟩

/-! ## Taking a draw -/

variable {c : ConcreteClass} (hc : c.Regular) {f : Family} (hf : c.family = f)
include hc hf

/-- What a formula makes of the numbers of a matrix is taken, if it stands for a rotation. -/
theorem takeMatrix_of_numbers (hs : ctx.settings.Lenient) {g : Formula}
    (hlink : Catalog.builtinRegistry.canonicalLink .fromCanonical (.tag f.tag) = .ok (.rule g))
    (hitself : g ≠ .itself) (hcopy : g ≠ .copy)
    (hinput : (g.skewInput? : Option (Transform ℝ)) = none) {R S : Mat3 ℝ} {m : Grid ℝ}
    (hm : g.apply ctx.settings.eps [R.toGrid] = .ok m) (hS : f.HasMatrix m S)
    (hrotation : S.IsRotation) :
    ∃ k, ctx.takeMatrix c (.fresh (.numeric R.toGrid)) = .ok k ∧ k.home = none ∧
      k.datum = .numeric m := by
  subst hf
  let h : Held ℝ := .fresh (.numeric R.toGrid)
  have hshape : h.datum.shape = [3, 3] := rfl
  have hleg : ctx.fromCanonical h c.key = ctx.settings.applyFormula g h := by
    unfold fromCanonical
    rw [hc.key_eq, hreg, hlink]
    rfl
  -- the leg answers the numbers that it has on the numbers of the matrix
  obtain ⟨k, hk, -, hdatum⟩ :=
    ctx.settings.applyFormula_numeric hitself hcopy hinput (h := h) rfl hm
  have hlegible : k.datum.Legible := hdatum ▸ trivial
  have hnumbers : k.datum.numbers? = some m := hdatum ▸ rfl
  -- and these are data of a rotation, so they pass the check
  have htaken : ctx.takeData c k = .ok k.copy :=
    takeData_of_rotation hreg hs hc hlegible hnumbers hS hrotation
  refine ⟨k.copy, ?_, rfl, hdatum⟩
  unfold takeMatrix
  rw [if_neg (not_not_intro hshape), hleg, hk]
  exact htaken

/-- The data of a draw is taken. Only what is found from the matrix is checked, and accepted. -/
theorem exists_takeDraw (hs : f = .euler ∨ f = .rodrigues → ctx.settings.Lenient)
    (q : Quaternion ℝ) :
    ∃ k, ctx.takeDraw c q = .ok k ∧ k.home = none ∧ k.datum = .numeric (f.drawn q) := by
  unfold takeDraw
  rw [hf, q.toDrawnMatrix_eq]
  cases f with
  | matrix => exact ⟨_, rfl, rfl, rfl⟩
  | quaternion => exact ⟨_, rfl, rfl, rfl⟩
  | rotationVector => exact ⟨_, rfl, rfl, rfl⟩
  | euler =>
    exact takeMatrix_of_numbers hreg hc hf (hs (.inl rfl)) rfl nofun nofun rfl rfl (.euler _)
      (EulerAngles.isRotation_toMat3 _)
  | rodrigues =>
    exact takeMatrix_of_numbers hreg hc hf (hs (.inr rfl)) rfl nofun nofun rfl rfl (.rodrigues _)
      (Rodrigues.isRotation_toMat3 _)

end Context

end Attitude
