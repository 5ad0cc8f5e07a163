import Attitude.Proofs.Elements.Logarithms
import Attitude.Proofs.Session.Planning

/-!
# Logarithms in a session

What the logarithm of an element is after any run that keeps the tables of conversions, for data
that encodes a rotation. The chain may have been asked for before, and the data may be symbolic: its
value is what counts. The only fault is the refusal of a skew part under a negative tolerance.

The length is at most a half turn, with the exception of parameters outside of the unit ball
(`logarithms_of_run`). At a half turn elements of the same rotation differ by the sign of their
logarithm at most, and quaternions and parameters do differ (`halfTurns_of_run`).
-/

namespace Attitude.Session

/-- The logarithm of an element is the rotation vector of its data. -/
theorem Regular.log {s : Session ℝ} (hs : s.Regular) {a : Subject ℝ} (ha : a.Regular)
    (σ : String → ℝ) :
    Meets s.world.settings.Refuses (fun h =>
      a.cls.family.logarithm s.world.settings.eps (a.held.datum.value σ) = .ok (h.datum.value σ))
      ((s.world.context.log a).run s.router).1 := by
  have hreg : s.world.context.registry = Catalog.builtinRegistry := hs.world.catalog.registry
  exact (Context.log_value hreg ha σ s.router (hreg ▸ hs.router)).1

/-! ## Lengths -/

/-- **Lengths of logarithms.** After a run that keeps the tables, the logarithm of an element of a
rotation is at most a half turn long, unless its data is parameters outside of the unit ball: the
logarithm of these is longer. -/
theorem logarithms_of_run (settings : Settings ℝ) (xs : List (Step ℝ))
    (hxs : ∀ x ∈ xs, x.KeepsTables) :
    let s := ((⟨{ settings := settings }, {}⟩ : Session ℝ).run xs).2
    0 ≤ s.world.settings.eps → s.world.settings.eps ≤ 1 / 2 →
    ∀ (a : Subject ℝ) (σ : String → ℝ) (R : Mat3 ℝ), a.Regular →
      a.cls.family.Encodes (a.held.datum.value σ) R →
      Meets s.world.settings.Refuses (fun h => ∃ v : Vec3 ℝ, h.datum.value σ = v.toGrid ∧
          (v.norm ≤ Real.pi ↔ a.cls.family.InBall (a.held.datum.value σ)))
        ((s.world.context.log a).run s.router).1 := by
  intro s heps heps' a σ R ha hR
  have hs : s.Regular := regular_run settings xs hxs
  obtain ⟨v, hv, hlength⟩ := hR.norm_logarithm heps heps'
  refine (hs.log ha σ).mono (fun _ => id) fun h hh => ⟨v, ?_, hlength⟩
  exact Except.ok.inj (hh.symm.trans hv)

/-- The guard of the initial settings, without literals. -/
theorem eps_initial : (Settings.initial : Settings ℝ).eps = 1 / 10000000 := by
  show (lit 1 / lit 10000000 : ℝ) = _
  simp

/-- The guard of the initial settings is not negative. -/
theorem eps_nonneg : 0 ≤ (Settings.initial : Settings ℝ).eps := by
  rw [eps_initial]
  norm_num

/-- The guard of the initial settings is small enough for the statements above. -/
theorem eps_le_half : (Settings.initial : Settings ℝ).eps ≤ 1 / 2 := by
  rw [eps_initial]
  norm_num

/-- A unit quaternion with a negative scalar part. -/
noncomputable def lower : Quaternion ℝ := ⟨-(lit 3 / lit 5), lit 0, lit 4 / lit 5, lit 0⟩

/-- The quaternion of the lower hemisphere is a unit quaternion. -/
theorem isUnit_lower : lower.IsUnit := by
  simp only [Quaternion.IsUnit, Quaternion.normSq, lower]
  norm_num

/-- As data of a quaternion it is the rotation that its matrix is. -/
theorem encodes_lower : Family.Encodes .quaternion lower.toGrid lower.toMat3 :=
  .exact (.quaternion isUnit_lower rfl)

/-- The logarithm of a quaternion is asked for, so that its chain is remembered. -/
noncomputable def loweredRun : List (Step ℝ) :=
  [.new "a" "Quat" (some (.data (.ok lower.toGrid))), .log "v" "a"]

theorem keepsTables_loweredRun : ∀ x ∈ loweredRun, x.KeepsTables := by
  simp only [loweredRun, List.forall_mem_cons]
  exact ⟨trivial, trivial, List.forall_mem_nil _⟩

/-- The logarithm of a quaternion of the lower hemisphere is that of its rotation, and principal. -/
theorem logarithm_after_loweredRun :
    (∀ x ∈ loweredRun, x.KeepsTables) ∧
      let s := ((⟨{ settings := .initial }, {}⟩ : Session ℝ).run loweredRun).2
      0 ≤ s.world.settings.eps ∧ s.world.settings.eps ≤ 1 / 2 ∧
      ∃ a : Subject ℝ, s.world.store.named "a" = .ok a ∧ a.Regular ∧
        a.cls.family.Encodes (a.held.datum.value fun _ => 0) lower.toMat3 ∧
        Meets s.world.settings.Refuses
          (fun h => ∃ v : Vec3 ℝ, h.datum.value (fun _ => 0) = v.toGrid ∧
            (v.norm ≤ Real.pi ↔ a.cls.family.InBall (a.held.datum.value fun _ => 0)))
          ((s.world.context.log a).run s.router).1 := by
  refine ⟨keepsTables_loweredRun, eps_nonneg, eps_le_half, _, rfl, ⟨rfl, rfl, trivial⟩,
    encodes_lower, ?_⟩
  exact logarithms_of_run .initial loweredRun keepsTables_loweredRun eps_nonneg eps_le_half _ _ _
    ⟨rfl, rfl, trivial⟩ encodes_lower

/-- Parameters outside of the unit ball. -/
def distant : Vec3 ℝ := ⟨lit 2, lit 0, lit 0⟩

/-- Parameters outside of the unit ball. -/
def distantRun : List (Step ℝ) := [.new "a" "Mrp" (some (.data (.ok distant.toGrid)))]

/-- The logarithm of parameters outside of the unit ball is longer than a half turn. -/
theorem logarithm_after_distantRun :
    let s := ((⟨{ settings := .initial }, {}⟩ : Session ℝ).run distantRun).2
    ∃ (a : Subject ℝ) (h : Held ℝ) (v : Vec3 ℝ), s.world.store.named "a" = .ok a ∧
      a.cls.family.Encodes (a.held.datum.value fun _ => 0) (Rodrigues.toMat3 distant) ∧
      ((s.world.context.log a).run s.router).1 = .ok h ∧
      h.datum.value (fun _ => 0) = v.toGrid ∧ Real.pi < v.norm := by
  refine ⟨_, _, Rodrigues.toRotationVector (Settings.initial : Settings ℝ).eps distant, rfl,
    .exact (.rodrigues rfl), rfl, rfl, ?_⟩
  have hlength : distant.norm = 2 := by
    apply Vec3.norm_of_dot_self zero_le_two
    simp [Vec3.dot_eq, distant]
  rw [← not_le, Rodrigues.norm_toRotationVector_le_iff distant eps_nonneg eps_le_half, hlength]
  norm_num

/-! ## Half turns -/

/-- **Half turns.** A half turn has one axis with a positive leading component. After a run that
keeps the tables, the logarithm of an element of this half turn is the half turn around that axis,
or around the axis that the data of the element has of its own: that of a quaternion or parameters,
which is the named one or its opposite. So a quaternion and its opposite have the same logarithm
unless they are half turns. -/
theorem halfTurns_of_run (settings : Settings ℝ) (xs : List (Step ℝ))
    (hxs : ∀ x ∈ xs, x.KeepsTables) :
    let s := ((⟨{ settings := settings }, {}⟩ : Session ℝ).run xs).2
    s.world.settings.eps < 1 →
    (∀ R : Mat3 ℝ, R.IsRotation → R.trace = -1 → ∃! a : Vec3 ℝ, a.Named ∧ R = .halfTurn a) ∧
    (∀ a : Vec3 ℝ, a.Named → ∀ (x : Subject ℝ) (σ : String → ℝ), x.Regular →
      x.cls.family.Encodes (x.held.datum.value σ) (.halfTurn a) →
      Meets s.world.settings.Refuses (fun h => ∃ b : Vec3 ℝ,
          x.cls.family.HasAxis a (x.held.datum.value σ) b ∧
          h.datum.value σ = (b.smul Real.pi).toGrid)
        ((s.world.context.log x).run s.router).1) ∧
    ∀ q : Quaternion ℝ, q.IsUnit → ∃ v w : Vec3 ℝ, (w = v ↔ q.w ≠ 0) ∧
      ∀ (x : Subject ℝ) (σ : String → ℝ), x.Regular → x.cls.family = .quaternion →
        (x.held.datum.value σ = q.toGrid → Meets s.world.settings.Refuses
          (fun h => h.datum.value σ = v.toGrid) ((s.world.context.log x).run s.router).1) ∧
        (x.held.datum.value σ = (-q).toGrid → Meets s.world.settings.Refuses
          (fun h => h.datum.value σ = w.toGrid) ((s.world.context.log x).run s.router).1) := by
  intro s heps
  have hs : s.Regular := regular_run settings xs hxs
  refine ⟨fun R hR htrace => hR.existsUnique_named htrace, ?_, ?_⟩
  · -- each family keeps its own axis, which is the named one up to sign
    intro a ha x σ hx hencodes
    obtain ⟨b, hb, hv⟩ := hencodes.logarithm_of_halfTurn ha heps
    exact (hs.log hx σ).mono (fun _ => id) fun h hh => ⟨b, hb, Except.ok.inj (hh.symm.trans hv)⟩
  · -- the signs of a quaternion agree but for the half turns
    intro q hq
    refine ⟨_, _, Quaternion.toRotationVector_neg_eq_iff hq heps, fun x σ hx hf => ?_⟩
    have hlog := hs.log hx σ
    rw [hf] at hlog
    constructor
    · intro hvalue
      rw [hvalue] at hlog
      exact hlog.mono (fun _ => id) fun h hh => (Except.ok.inj hh).symm
    · intro hvalue
      rw [hvalue] at hlog
      exact hlog.mono (fun _ => id) fun h hh => (Except.ok.inj hh).symm

/-- A unit vector with a positive leading component. -/
noncomputable def slanted : Vec3 ℝ := ⟨-(lit 1 / lit 3), lit 2 / lit 3, lit 2 / lit 3⟩

/-- Parameters that are the opposite of a named axis, and the quaternions of both signs. -/
noncomputable def slantedRun : List (Step ℝ) :=
  [.new "a" "Mrp" (some (.data (.ok (-slanted).toGrid))),
   .new "b" "Quat" (some (.data (.ok (Quaternion.ofParts 0 slanted).toGrid))),
   .new "c" "Quat" (some (.data (.ok (-Quaternion.ofParts 0 slanted).toGrid))),
   .log "v" "a"]

/-- The slanted vector is a unit vector whose largest component is positive. -/
theorem named_slanted : slanted.Named where
  unit := by
    simp only [Vec3.dot_eq, slanted]
    norm_num
  leading := by
    simp only [Vec3.leading, slanted]
    norm_num [abs_of_pos]

/-- The three logarithms of a half turn around a slanted axis: parameters and quaternions keep the
axis they have, so quaternions of opposite signs differ. -/
theorem halfTurns_after_slantedRun :
    (∀ x ∈ slantedRun, x.KeepsTables) ∧
      let s := ((⟨{ settings := .initial }, {}⟩ : Session ℝ).run slantedRun).2
      s.world.settings.eps < 1 ∧ (Mat3.halfTurn slanted).IsRotation ∧
      (Mat3.halfTurn slanted).trace = -1 ∧ slanted.Named ∧
      (∃! a : Vec3 ℝ, a.Named ∧ Mat3.halfTurn slanted = .halfTurn a) ∧
      (∃ x : Subject ℝ, s.world.store.named "a" = .ok x ∧ x.Regular ∧
        x.cls.family.Encodes (x.held.datum.value fun _ => 0) (.halfTurn slanted) ∧
        Meets s.world.settings.Refuses (fun h => ∃ b : Vec3 ℝ,
            x.cls.family.HasAxis slanted (x.held.datum.value fun _ => 0) b ∧
            h.datum.value (fun _ => 0) = (b.smul Real.pi).toGrid)
          ((s.world.context.log x).run s.router).1) ∧
      ∃ (x y : Subject ℝ) (v w : Vec3 ℝ), s.world.store.named "b" = .ok x ∧
        s.world.store.named "c" = .ok y ∧ w ≠ v ∧
        Meets s.world.settings.Refuses (fun h => h.datum.value (fun _ => 0) = v.toGrid)
          ((s.world.context.log x).run s.router).1 ∧
        Meets s.world.settings.Refuses (fun h => h.datum.value (fun _ => 0) = w.toGrid)
          ((s.world.context.log y).run s.router).1 := by
  have hxs : ∀ x ∈ slantedRun, x.KeepsTables := by
    simp only [slantedRun, List.forall_mem_cons]
    exact ⟨trivial, trivial, trivial, trivial, List.forall_mem_nil _⟩
  have heps : (Settings.initial : Settings ℝ).eps < 1 := by linarith [eps_le_half]
  have hunit := named_slanted.unit
  have hrotation := Mat3.isRotation_halfTurn hunit
  have htrace := Mat3.trace_halfTurn hunit
  -- at length one both signs of the parameters have the same matrix
  have hencodes : Family.Encodes .rodrigues (-slanted).toGrid (.halfTurn slanted) := by
    have hneg := Rodrigues.toMat3_of_unit (slanted.dot_neg_self.trans hunit)
    exact .exact (.rodrigues (hneg.trans (Mat3.halfTurn_neg _)))
  obtain ⟨haxis, hhalf, hsigns⟩ := halfTurns_of_run .initial slantedRun hxs heps
  -- and the quaternion of the half turn has no scalar part
  have hq : (Quaternion.ofParts 0 slanted).IsUnit := by
    have hr := Rodrigues.isUnit_toQuaternion slanted
    rwa [Rodrigues.toQuaternion_of_unit hunit] at hr
  obtain ⟨v, w, hvw, hlog⟩ := hsigns _ hq
  have hne : w ≠ v := fun h => hvw.1 h rfl
  refine ⟨hxs, heps, hrotation, htrace, named_slanted, haxis _ hrotation htrace,
    ⟨_, rfl, ⟨rfl, rfl, trivial⟩, hencodes, ?_⟩, _, _, v, w, rfl, rfl, hne, ?_, ?_⟩
  · exact hhalf slanted named_slanted _ _ ⟨rfl, rfl, trivial⟩ hencodes
  · refine (hlog _ _ ?_ ?_).1 ?_
    · exact ⟨rfl, rfl, trivial⟩
    · rfl
    · rfl
  · refine (hlog _ _ ?_ ?_).2 ?_
    · exact ⟨rfl, rfl, trivial⟩
    · rfl
    · rfl

/-- The quaternions of a half turn. -/
def oppositeRun : List (Step ℝ) :=
  [.new "a" "Quat" (some (.data (.ok (⟨0, -1, 0, 0⟩ : Quaternion ℝ).toGrid))),
   .new "b" "Quat" (some (.data (.ok (⟨0, 1, 0, 0⟩ : Quaternion ℝ).toGrid)))]

/-- The two quaternions of a half turn have opposite logarithms, of which one has a negative leading
component. -/
theorem logarithms_ne_after_oppositeRun :
    let s := ((⟨{ settings := .initial }, {}⟩ : Session ℝ).run oppositeRun).2
    ∃ (R : Mat3 ℝ) (a b : Subject ℝ) (h k : Held ℝ), R.IsRotation ∧ R.trace = -1 ∧
      s.world.store.named "a" = .ok a ∧ s.world.store.named "b" = .ok b ∧
      a.cls.family.Encodes (a.held.datum.value fun _ => 0) R ∧
      b.cls.family.Encodes (b.held.datum.value fun _ => 0) R ∧
      ((s.world.context.log a).run s.router).1 = .ok h ∧
      ((s.world.context.log b).run s.router).1 = .ok k ∧
      h.datum.value (fun _ => 0) = (⟨-Real.pi, 0, 0⟩ : Vec3 ℝ).toGrid ∧
      k.datum.value (fun _ => 0) = (⟨Real.pi, 0, 0⟩ : Vec3 ℝ).toGrid ∧
      h.datum.value (fun _ => 0) ≠ k.datum.value fun _ => 0 := by
  have heps : (Settings.initial : Settings ℝ).eps < 1 := by linarith [eps_le_half]
  -- the quaternions of half turns around the first axis, one way and the other
  have hturn (c : ℝ) (hc : c * c = 1) :
      (⟨0, c, 0, 0⟩ : Quaternion ℝ).IsUnit ∧
        (⟨0, c, 0, 0⟩ : Quaternion ℝ).toMat3 = .halfTurn ⟨1, 0, 0⟩ ∧
        (⟨0, c, 0, 0⟩ : Quaternion ℝ).toRotationVector (Settings.initial : Settings ℝ).eps =
          ⟨Real.pi * c, 0, 0⟩ := by
    have hunit : (⟨0, c, 0, 0⟩ : Quaternion ℝ).IsUnit := by
      simpa [Quaternion.IsUnit, Quaternion.normSq] using hc
    refine ⟨hunit, ?_, ?_⟩
    · rw [Quaternion.toMat3_of_w_eq_zero hunit rfl, Mat3.halfTurn_eq, Mat3.halfTurn_eq]
      simp [Quaternion.vec, hc]
    · rw [Quaternion.toRotationVector_of_w_eq_zero hunit rfl heps]
      simp [Vec3.smul_eq, Quaternion.vec]
  obtain ⟨ha, haR, hav⟩ := hturn (-1) (by norm_num)
  obtain ⟨hb, hbR, hbv⟩ := hturn 1 (by norm_num)
  have haxis : (⟨1, 0, 0⟩ : Vec3 ℝ).dot ⟨1, 0, 0⟩ = 1 := by simp [Vec3.dot_eq]
  rw [mul_neg_one] at hav
  rw [mul_one] at hbv
  refine ⟨.halfTurn ⟨1, 0, 0⟩, _, _, _, _, Mat3.isRotation_halfTurn haxis,
    Mat3.trace_halfTurn haxis, rfl, rfl, .exact (.quaternion ha haR), .exact (.quaternion hb hbR),
    rfl, rfl, congrArg Vec3.toGrid hav, congrArg Vec3.toGrid hbv, ?_⟩
  intro hsame
  have hvectors := (congrArg Vec3.toGrid hav).symm.trans (hsame.trans (congrArg Vec3.toGrid hbv))
  have hx : -Real.pi = Real.pi :=
    congrArg Vec3.x (Option.some.inj (congrArg Grid.toVec3? hvectors))
  linarith [Real.pi_pos]

end Attitude.Session
