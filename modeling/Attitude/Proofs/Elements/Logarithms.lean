import Attitude.Proofs.Elements.Encodings
import Attitude.Proofs.Elements.Operations
import Attitude.Proofs.Rotation.EulerAngles
import Attitude.Proofs.Rotation.HalfTurn

/-!
# The logarithm of an element

What a conversion answers has the value that the links of its chain make of the value of the data,
one after the other. For the logarithm the chain depends on the family: quaternions and parameters
have a direct rule, matrices and Euler angles go through the matrix, and a rotation vector is
copied.

On data that encodes a rotation the logarithm is then known as a vector. Its length is at most a
half turn, except for parameters outside of the unit ball. At a half turn matrices and Euler angles
yield the named axis, and quaternions and parameters the axis that their data has.
-/

namespace Attitude

/-- A contract may say of the answer that it is the answer. -/
theorem Meets.with_answer {β : Type} {E : Fault → Prop} {P : β → Prop} {x : Except Fault β}
    (hx : Meets E P x) : Meets E (fun b => P b ∧ x = .ok b) x := by
  cases hx with
  | ok h => exact .ok ⟨h, rfl⟩
  | error h => exact .error h

variable {σ : String → ℝ} {h k : Held ℝ}

/-! ## Values of conversions -/

/-- What a link makes of a matrix of numbers. -/
noncomputable def Link.onNumbers (eps : ℝ) (m : Grid ℝ) : Link Formula → Except Fault (Grid ℝ)
  | .copy => .ok m
  | .rule f => f.apply eps [m]

namespace Settings

variable {s : Settings ℝ}

/-- The value of what a formula answers, whether or not the formula checks its argument. -/
theorem value_of_applyFormula {f : Formula} (hk : s.applyFormula f h = .ok k) :
    f.apply s.eps [h.datum.value σ] = .ok (k.datum.value σ) := by
  obtain ⟨rfl | rfl, hdatum⟩ | happly := datum_of_applyFormula hk
  · rw [hdatum]
    rfl
  · rw [hdatum]
    rfl
  · have hvalue := h.datum.apply_value (σ := σ) (natural_transform f s.eps)
    rw [happly] at hvalue
    generalize hy : f.transform s.eps id (h.datum.value σ) = y at hvalue
    cases hvalue with
    | ok hv => exact hy.trans (congrArg Except.ok hv.symm)

theorem value_of_applyLink {l : Link Formula} (hk : s.applyLink h l = .ok k) :
    l.onNumbers s.eps (h.datum.value σ) = .ok (k.datum.value σ) := by
  cases l with
  | copy =>
    cases hk
    rfl
  | rule f => exact value_of_applyFormula hk

theorem value_of_applyRoute {r : Route Formula} (hk : s.applyRoute r h = .ok k) :
    r.links.foldlM (Link.onNumbers s.eps) (h.datum.value σ) = .ok (k.datum.value σ) := by
  unfold applyRoute at hk
  generalize r.links = ls at hk ⊢
  -- each link starts from what the one before it answered
  induction ls generalizing h with
  | nil =>
    cases hk
    rfl
  | cons l ls ih =>
    rw [List.foldlM_cons] at hk ⊢
    obtain ⟨h', hh', hk⟩ := exists_of_bind_eq_ok hk
    rw [value_of_applyLink hh']
    exact ih hk

end Settings

/-! ## The chain of the logarithm -/

namespace Family

/-- The links from the data of a family to its rotation vector. -/
def logLinks : Family → List (Link Formula)
  | matrix => [.rule .rotationVectorOfMatrix]
  | quaternion => [.rule .quaternionToRotationVector]
  | rotationVector => [.copy]
  | euler => [.rule .eulerToMatrix, .rule .rotationVectorOfMatrix]
  | rodrigues => [.rule .rodriguesToRotationVector]

/-- To rotation vectors there is a direct rule, or the two legs. -/
theorem resolve_logLinks (f : Family) : ∃ kind, Catalog.builtinRegistry.resolve (.tag f.tag)
    (.tag .rotationVector) = .ok ⟨kind, f.logLinks⟩ := by
  cases f <;> exact ⟨_, rfl⟩

/-- The rotation vector of the data of a family. -/
noncomputable def logarithm (eps : ℝ) (f : Family) (m : Grid ℝ) : Except Fault (Grid ℝ) :=
  f.logLinks.foldlM (Link.onNumbers eps) m

end Family

/-- The logarithm of an element has an answer, unless a skew part is refused, and the answer is the
rotation vector of the data. -/
theorem Context.log_value {ctx : Context ℝ} (hreg : ctx.registry = Catalog.builtinRegistry)
    {a : Subject ℝ} (ha : a.Regular) (σ : String → ℝ) :
    Asking.Fulfils ctx.registry ctx.settings.Refuses (fun h =>
      a.cls.family.logarithm ctx.settings.eps (a.held.datum.value σ) = .ok (h.datum.value σ))
      (ctx.log a) := by
  obtain ⟨route, hroute, htakes⟩ := a.cls.family.resolve .rotationVector
  obtain ⟨kind, hlinks⟩ := a.cls.family.resolve_logLinks
  obtain rfl : route = ⟨kind, a.cls.family.logLinks⟩ := Except.ok.inj (hroute.symm.trans hlinks)
  unfold log coordinates
  rw [ha.cls.key_eq]
  rw [← hreg] at hroute
  refine .bind (.route ctx (.of_eq_ok hroute rfl)) fun r hr => .lift ?_
  subst hr
  exact (Settings.applyRoute_new htakes ha.fits).with_answer.mono (fun _ => id)
    fun _ hk => Settings.value_of_applyRoute hk.2

/-! ## Data that encodes a rotation -/

namespace Family

/-- The data `m` of a family is valid and stands for the rotation `R`. -/
inductive Encodes : Family → Grid ℝ → Mat3 ℝ → Prop
  | exact {k : Encoding} {m : Grid ℝ} {R : Mat3 ℝ} (hm : k.Encodes m R) : Encodes k.family m R
  | euler (e : EulerAngles ℝ) : Encodes euler e.toGrid e.toMat3

/-- Data of parameters lies in the unit ball; other data is not concerned. -/
def InBall (f : Family) (m : Grid ℝ) : Prop :=
  f = rodrigues → ∀ r : Vec3 ℝ, m = r.toGrid → r.norm ≤ 1

/-- The unit vector `b` is the axis that the data `m` has at a half turn with the named axis `a`. A
matrix and Euler angles have none of their own. -/
inductive HasAxis (a : Vec3 ℝ) : Family → Grid ℝ → Vec3 ℝ → Prop
  | matrix (m : Grid ℝ) : HasAxis a matrix m a
  | euler (m : Grid ℝ) : HasAxis a euler m a
  | quaternion {b : Vec3 ℝ} (hb : b = a ∨ b = -a) :
      HasAxis a quaternion (Quaternion.ofParts 0 b).toGrid b
  | rodrigues {b : Vec3 ℝ} (hb : b = a ∨ b = -a) : HasAxis a rodrigues b.toGrid b

variable {f : Family} {m : Grid ℝ} {R : Mat3 ℝ} {eps : ℝ}

theorem Encodes.isRotation (h : f.Encodes m R) : R.IsRotation := by
  cases h with
  | exact hm => exact hm.isRotation
  | euler e => exact e.isRotation_toMat3

/-- **Lengths.** The logarithm of valid data is at most a half turn long, unless the data is
parameters outside of the unit ball. -/
theorem Encodes.norm_logarithm (h : f.Encodes m R) (heps : 0 ≤ eps) (heps' : eps ≤ 1 / 2) :
    ∃ v : Vec3 ℝ, f.logarithm eps m = .ok v.toGrid ∧ (v.norm ≤ Real.pi ↔ f.InBall m) := by
  -- angles go by way of the matrix; of the others only parameters can be too long
  cases h with
  | euler e =>
    refine ⟨_, rfl, iff_of_true ?_ nofun⟩
    exact RotationVector.norm_ofMat3_le e.isRotation_toMat3
  | exact hm =>
    cases hm with
    | matrix hR => exact ⟨_, rfl, iff_of_true (RotationVector.norm_ofMat3_le hR) nofun⟩
    | quaternion hq hR =>
      exact ⟨_, rfl, iff_of_true (Quaternion.norm_toRotationVector_le hq heps heps') nofun⟩
    | @rodrigues r R hR =>
      refine ⟨_, rfl, (Rodrigues.norm_toRotationVector_le_iff r heps heps').trans ?_⟩
      constructor
      · rintro hr - r' hr'
        obtain rfl : r = r' := Option.some.inj (congrArg Grid.toVec3? hr')
        exact hr
      · intro hball
        exact hball rfl r rfl

/-- **Half turns.** The logarithm of valid data of a half turn has the axis that the data has. -/
theorem Encodes.logarithm_of_halfTurn {a : Vec3 ℝ} (h : f.Encodes m (.halfTurn a))
    (ha : a.Named) (heps : eps < 1) : ∃ b : Vec3 ℝ, f.HasAxis a m b ∧
      f.logarithm eps m = .ok (b.smul Real.pi).toGrid := by
  generalize hR : Mat3.halfTurn a = R at h
  have hmatrix : RotationVector.ofMat3 R = a.smul Real.pi := by
    rw [← hR]
    exact RotationVector.ofMat3_halfTurn ha
  -- angles and matrices have the named axis, quaternions and parameters their own
  cases h with
  | euler e => exact ⟨a, .euler _, hmatrix ▸ rfl⟩
  | exact hm =>
    cases hm with
    | matrix _ => exact ⟨a, .matrix _, hmatrix ▸ rfl⟩
    | @quaternion q R hq hqR =>
      obtain ⟨hw, hvec⟩ := Quaternion.vec_of_halfTurn hq ha.unit (hqR.trans hR.symm)
      have hparts : q = .ofParts 0 q.vec := hw ▸ rfl
      refine ⟨q.vec, ?_, ?_⟩
      · have haxis := HasAxis.quaternion hvec
        rwa [← hparts] at haxis
      · rw [← Quaternion.toRotationVector_of_w_eq_zero hq hw heps]
        rfl
    | @rodrigues r R hr =>
      obtain ⟨hunit, haxis⟩ := Rodrigues.unit_of_halfTurn ha.unit (hr.trans hR.symm)
      refine ⟨r, .rodrigues haxis, ?_⟩
      rw [← Rodrigues.toRotationVector_of_unit hunit heps]
      rfl

end Family

end Attitude
