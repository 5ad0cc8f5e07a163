import Attitude.Proofs.Elements.Draw
import Attitude.Proofs.Session.Adjoint
import Attitude.Proofs.Session.Closeness

/-!
# Draws in a session

An element takes a drawn rotation in the way of its family, as a new element or in place
(`Regular.step_random`, `Regular.step_setRandom`). Whichever way it is, the element then has the
rotation of the drawn quaternion, and its data is in range (`draws_of_run`). A half turn has two
rotation vectors, and which of them is drawn makes no difference to the rotation.
-/

namespace Attitude

open Asking

namespace Store

variable {α : Type} [Ground α] {s : Store α} {r : String} {e : ElementId} {a : Subject α}
  {h : Held α}

/-- An element is found under its register with the data it was given. -/
theorem named_replaceData_self (hh : h.home = none) (he : s.elementId r = .ok e)
    (ha : s.subject e = .ok a) : (s.replaceData e h).named r =
      .ok ⟨a.cls, ⟨h.sheet.stamp s.labels, some ⟨s.matrices.size⟩⟩⟩ := by
  refine named_of_ref ?_ (subject_replaceData_self hh ha)
  rw [← ref_of_elementId he, replaceData_of_new s e hh]
  rfl

end Store

namespace Session

variable {s : Session ℝ} {f : Family} {r : String} {b : Subject ℝ} {x y z w : ℝ}
  {q : Quaternion ℝ}

/-- The rotation matrix of an element of numbers is answered as numbers. -/
theorem Regular.step_rotationMatrix_of_numbers (hs : s.Regular) (hb : s.world.store.named r = .ok b)
    {m : Grid ℝ} {R : Mat3 ℝ} (hm : b.held.datum = .numeric m) (hR : b.cls.family.HasMatrix m R)
    (d : String) : (s.step (.rotationMatrix d r)).1 =
      .ok (.matrix (Datum.numeric R.toGrid).shown) := by
  have hreg : s.world.context.registry = Catalog.builtinRegistry := hs.world.catalog.registry
  obtain ⟨k, hk, hdatum⟩ := Context.rotationMatrix_of_numbers hreg (hs.world.store.named hb) hm hR
  rw [← hdatum]
  exact step_of_newMatrix (d := d) hs.coherent (.read_ok hb (.read_ok hk (.pure rfl)))

/-- A draw makes a new element. -/
theorem Regular.step_random (hs : s.Regular) (hq : Quaternion.ofDraw x y z w = .ok q)
    (hlenient : f = .euler ∨ f = .rodrigues → s.world.settings.Lenient) (r : String) :
    ∃ t, s.step (.random r f.elementClass.name x y z w) =
        (.ok (.element f.elementClass.name (Datum.numeric (f.drawn q)).shown), t) ∧
      s.Makes t r f (f.drawn q) := by
  have hreg : s.world.context.registry = Catalog.builtinRegistry := hs.world.catalog.registry
  have hregular : f.concreteClass.Regular := rfl
  obtain ⟨k, hk, hhome, hdatum⟩ : ∃ k, s.world.context.takeDraw f.concreteClass q = .ok k ∧
      k.home = none ∧ k.datum = .numeric (f.drawn q) :=
    Context.exists_takeDraw hreg hregular rfl hlenient q
  exact hs.step_of_newElement trivial (.read_ok (hs.world.catalog.classNamed_elementClass f)
    (.read_ok f.concrete_elementClass (.read_ok hq (.read_ok hk (.pure ⟨k, rfl, hhome, hdatum⟩)))))

/-- A draw gives an element other data. -/
theorem Regular.step_setRandom (hs : s.Regular) (hb : s.world.store.named r = .ok b)
    (hf : b.cls.family = f) (hq : Quaternion.ofDraw x y z w = .ok q)
    (hlenient : f = .euler ∨ f = .rodrigues → s.world.settings.Lenient) :
    ∃ t, s.step (.setRandom r x y z w) =
        (.ok (.element b.cls.name (Datum.numeric (f.drawn q)).shown), t) ∧ t.Regular ∧
      ∃ h : Held ℝ, t.world.store.named r = .ok ⟨b.cls, h⟩ ∧ h.datum = .numeric (f.drawn q) := by
  have hreg : s.world.context.registry = Catalog.builtinRegistry := hs.world.catalog.registry
  obtain ⟨k, hk, hhome, hdatum⟩ : ∃ k, s.world.context.takeDraw b.cls q = .ok k ∧
      k.home = none ∧ k.datum = .numeric (f.drawn q) :=
    Context.exists_takeDraw hreg (hs.world.store.named hb).cls hf hlenient q
  obtain ⟨e, he, hb⟩ := exists_of_bind_eq_ok hb
  -- every lookup of the plan answers, so the step cannot fail
  have hplan : Fulfils s.world.catalog.registry (fun _ => False) (· = .newData e b.cls k)
      (s.world.plan (.setRandom r x y z w)) :=
    .read_ok he (.read_ok hb (.read_ok hq (.read_ok hk (.pure rfl))))
  have hanswer : (Plan.newData e b.cls k).answer =
      .element b.cls.name (Datum.numeric (f.drawn q)).shown := by
    rw [← hdatum]
    rfl
  have hregular := hs.step (x := .setRandom r x y z w) trivial
  obtain ⟨p, ρ, rfl, -, hstep⟩ := step_of_fulfils hs.coherent hplan
  rw [hstep] at hregular
  rw [hanswer] at hstep
  exact ⟨_, hstep, hregular, _, Store.named_replaceData_self hhome he hb,
    congrArg (Datum.stamp _) hdatum⟩

/-- **Draws.** After a run that keeps the tables, take a draw that is not zero, and the quaternion
of length one that it is scaled to. A class makes a new element of the draw, and an element takes it
in place: a matrix, a quaternion, parameters, a rotation vector if the angle is zero or at least one
thousandth, and Euler angles if the matrix is not near a gimbal lock. Parameters and Euler angles
are checked, so with checks on the tolerance must not be negative. The data stands for the matrix of
the quaternion, which is what the rotation matrix of the element is answered to be, and it is in the
range of the family.

The drawn rotation vector is one of at most a half turn. At a half turn its opposite is another, and
there are no more than these. An element with any of them as data has the rotation, too. -/
theorem draws_of_run (settings : Settings ℝ) (xs : List (Step ℝ))
    (hxs : ∀ x ∈ xs, x.KeepsTables) :
    let s := ((⟨{ settings := settings }, {}⟩ : Session ℝ).run xs).2
    ∀ x y z w : ℝ, (x, y, z, w) ≠ 0 →
      let n := Real.sqrt (x * x + y * y + z * z + w * w)
      let q : Quaternion ℝ := ⟨w / n, x / n, y / n, z / n⟩
      let rotation : Except Fault (Answer ℝ) := .ok (.matrix (Datum.numeric q.toMat3.toGrid).shown)
      (q.angle = 0 ∨ 1 / 1000 ≤ q.angle → ∀ v : Vec3 ℝ,
        (q.HasVector v ↔
          v = q.toDrawnRotationVector ∨ q.angle = Real.pi ∧ v = -q.toDrawnRotationVector) ∧
        (q.HasVector v →
          Family.rotationVector.HasMatrix v.toGrid q.toMat3 ∧
          Family.rotationVector.InRange v.toGrid ∧
          ∀ r d b, s.world.store.named r = .ok b → b.cls.family = .rotationVector →
            b.held.datum = .numeric v.toGrid → (s.step (.rotationMatrix d r)).1 = rotation)) ∧
      ∀ f : Family, (f = .rotationVector → q.angle = 0 ∨ 1 / 1000 ≤ q.angle) →
        (f = .euler → |q.toMat3.zx| ≤ 1 - EulerAngles.gimbalTolerance) →
        (f = .euler ∨ f = .rodrigues → s.world.settings.Lenient) →
        let data := (Datum.numeric (f.drawn q)).shown
        f.HasMatrix (f.drawn q) q.toMat3 ∧ f.InRange (f.drawn q) ∧
        (∀ r d, (s.run [.random r f.elementClass.name x y z w, .rotationMatrix d r]).1 =
          [.ok (.element f.elementClass.name data), rotation]) ∧
        ∀ r d b, s.world.store.named r = .ok b → b.cls.family = f →
          (s.run [.setRandom r x y z w, .rotationMatrix d r]).1 =
            [.ok (.element b.cls.name data), rotation] := by
  intro s x y z w hdraw n q rotation
  have hs : s.Regular := regular_run settings xs hxs
  obtain ⟨hq, hunit⟩ := Quaternion.ofDraw_of_ne_zero hdraw
  refine ⟨fun hangle v => ⟨hunit.hasVector_iff hangle, fun hv => ?_⟩, ?_⟩
  · -- of the two vectors of a half turn either one may be drawn: both have the matrix
    have hmatrix := Family.hasMatrix_of_hasVector hv hangle
    refine ⟨hmatrix, Family.inRange_of_hasVector hv, fun r d b hb hf hdatum => ?_⟩
    exact hs.step_rotationMatrix_of_numbers hb hdatum (hf ▸ hmatrix) d
  intro f hangle hlock hlenient data
  have hmatrix := Family.hasMatrix_drawn hunit hangle hlock
  refine ⟨hmatrix, Family.inRange_drawn hunit hangle hlock, fun r d => ?_, fun r d b hb hf => ?_⟩
  · -- a new element: its data is the draw in the form of the class
    obtain ⟨t, hstep, ht⟩ := hs.step_random hq hlenient r
    obtain ⟨h, hr, hm⟩ := ht.made
    show [(s.step _).1, ((s.step _).2.step _).1] = _
    rw [hstep, ht.regular.step_rotationMatrix_of_numbers hr hm hmatrix]
  · -- an old element: it keeps its class and takes the draw
    obtain ⟨t, hstep, ht, h, hr, hm⟩ := hs.step_setRandom hb hf hq hlenient
    rw [← hf] at hmatrix
    show [(s.step _).1, ((s.step _).2.step _).1] = _
    rw [hstep, ht.step_rotationMatrix_of_numbers hr (hf ▸ hm) hmatrix]

/-- An element that is given a draw later on, and whose logarithm has been asked for. -/
def givenRun : List (Step ℝ) := [.new "a" "AngleAxis" none, .log "v" "a"]

/-- The draw `(1, 2, 2, -4)` scaled to length one. -/
noncomputable def given : Quaternion ℝ :=
  ⟨-lit 4 / lit 5, lit 1 / lit 5, lit 2 / lit 5, lit 2 / lit 5⟩

noncomputable def givenRotation : Mat3 ℝ :=
  ⟨lit 9 / lit 25, lit 20 / lit 25, -lit 12 / lit 25, -lit 12 / lit 25, lit 15 / lit 25,
    lit 16 / lit 25, lit 20 / lit 25, lit 0, lit 15 / lit 25⟩

theorem given_eq : given = ⟨-4 / 5, 1 / 5, 2 / 5, 2 / 5⟩ := by
  simp only [given, lit_one, Nat.cast_ofNat]

/-- The matrix of the drawn quaternion by numbers. -/
theorem toMat3_given : given.toMat3 = givenRotation := by
  rw [Quaternion.toMat3_eq]
  ext <;> norm_num [given, givenRotation]

/-- No series is taken for this rotation vector. -/
theorem far_given : 1 / 1000 ≤ given.angle := by
  have hcos : |given.w| ≤ Real.cos (1 / 2000) := by
    refine le_trans ?_ (Real.one_sub_sq_div_two_le_cos (x := 1 / 2000))
    norm_num [given, abs_of_neg]
  have harccos : 1 / 2000 ≤ Real.arccos |given.w| := by
    rw [← Real.arccos_cos (x := 1 / 2000) (by norm_num) (by linarith [Real.pi_gt_three])]
    exact Real.antitone_arccos hcos
  rw [Quaternion.angle_eq]
  linarith

/-- A half turn around the last axis. -/
noncomputable def turned : Quaternion ℝ := ⟨lit 0, lit 0, lit 0, lit 1⟩

theorem turned_eq : turned = ⟨0, 0, 0, 1⟩ := by
  simp only [turned, lit_zero, lit_one]

theorem angle_turned : turned.angle = Real.pi := by
  rw [Quaternion.angle_eq, turned_eq, abs_zero, Real.arccos_zero]
  ring

/-- The scalar part of the first draw is negative. The second one is a half turn, with the opposite
of the vector that is drawn. -/
theorem draws_after_givenRun :
    (∀ x ∈ givenRun, x.KeepsTables) ∧
      let s := ((⟨{ settings := .initial }, {}⟩ : Session ℝ).run givenRun).2
      let rotation : Except Fault (Answer ℝ) :=
        .ok (.matrix (Datum.numeric givenRotation.toGrid).shown)
      ((1, 2, 2, -4) : ℝ × ℝ × ℝ × ℝ) ≠ 0 ∧ 1 / 1000 ≤ given.angle ∧
      |given.toMat3.zx| ≤ 1 - EulerAngles.gimbalTolerance ∧ s.world.settings.Lenient ∧
      Family.InRange .rotationVector given.toDrawnRotationVector.toGrid ∧
      (s.run [.setRandom "a" 1 2 2 (-4), .rotationMatrix "m" "a"]).1 =
        [.ok (.element "AngleAxis" (Datum.numeric given.toDrawnRotationVector.toGrid).shown),
          rotation] ∧
      (s.run [.random "b" "Euler" 1 2 2 (-4), .rotationMatrix "m" "b"]).1 =
        [.ok (.element "Euler" (Datum.numeric (EulerAngles.ofMat3 givenRotation).toGrid).shown),
          rotation] ∧
      turned.HasVector (-turned.toDrawnRotationVector) ∧
      Family.rotationVector.HasMatrix (-turned.toDrawnRotationVector).toGrid turned.toMat3 := by
  have hxs : ∀ x ∈ givenRun, x.KeepsTables := by
    simp only [givenRun, List.forall_mem_cons]
    exact ⟨trivial, trivial, List.forall_mem_nil _⟩
  have hdraw : ((1, 2, 2, -4) : ℝ × ℝ × ℝ × ℝ) ≠ 0 := by simp
  have hfive : Real.sqrt (1 * 1 + 2 * 2 + 2 * 2 + -4 * -4) = 5 := by
    rw [Real.sqrt_eq_iff_mul_self_eq_of_pos (by norm_num)]
    norm_num
  have hlock : |given.toMat3.zx| ≤ 1 - EulerAngles.gimbalTolerance := by
    rw [toMat3_given, EulerAngles.gimbalTolerance_eq]
    norm_num [givenRotation, abs_of_pos]
  have hdraws := (draws_of_run .initial givenRun hxs 1 2 2 (-4) hdraw).2
  simp only [hfive, ← given_eq] at hdraws
  obtain ⟨-, hrange, -, hvector⟩ :=
    hdraws .rotationVector (fun _ => .inr far_given) nofun fun _ => .inl rfl
  obtain ⟨-, -, hangles, -⟩ := hdraws .euler nofun (fun _ => hlock) fun _ => .inl rfl
  have hvector := hvector "a" "m" _ rfl rfl
  have hone : Real.sqrt (0 * 0 + 0 * 0 + 1 * 1 + 0 * 0) = 1 := by norm_num
  have hturned := (draws_of_run .initial givenRun hxs 0 0 1 0 (by simp)).1
  simp only [hone, div_one, ← turned_eq] at hturned
  have hhalf : turned.angle = 0 ∨ 1 / 1000 ≤ turned.angle :=
    .inr (by rw [angle_turned]; linarith [Real.pi_gt_three])
  obtain ⟨hboth, hmatrix⟩ := hturned hhalf (-turned.toDrawnRotationVector)
  have hopposite := hboth.2 (.inr ⟨angle_turned, rfl⟩)
  have hangles := hangles "b" "m"
  rw [← toMat3_given]
  exact ⟨hxs, hdraw, far_given, hlock, .inl rfl, hrange, hvector, hangles,
    hopposite, (hmatrix hopposite).1⟩

end Session

end Attitude
