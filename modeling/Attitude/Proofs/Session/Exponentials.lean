import Attitude.Proofs.Elements.Exponentials
import Attitude.Proofs.Session.Logarithms

/-!
# Exponentials in a session

The logarithm of the exponential of a vector, after any run that keeps the tables of conversions. It
takes two steps. The first binds a new element to a register (`Regular.step_exp`), which then has a
logarithm of numbers (`HasLogarithm`), and the second asks for it (`HasLogarithm.step_log`).

Every class but that of rotation vectors returns the principal vector, and rotation vectors are
returned as they are (`exponentials_of_run`).
-/

namespace Attitude

open Asking

/-- The class of a family is found under its name. -/
theorem Catalog.Standard.classNamed_elementClass {c : Catalog} (hc : c.Standard) (f : Family) :
    c.classNamed f.elementClass.name = .ok f.elementClass := by
  unfold Catalog.classNamed
  rw [hc.classes]
  cases f <;> rfl

namespace Session

/-- The cache of a regular session agrees with the tables. -/
theorem Regular.coherent {α : Type} [Ground α] {s : Session α} (hs : s.Regular) :
    s.router.Coherent s.world.catalog.registry :=
  hs.world.catalog.registry ▸ hs.router

/-- A step whose plan never fails makes what it plans, and leaves a router that answers from the
tables. -/
theorem step_of_fulfils {α : Type} [Ground α] {s : Session α} {x : Step α} {P : Plan α → Prop}
    (hs : s.router.Coherent s.world.catalog.registry)
    (hP : Fulfils s.world.catalog.registry (fun _ => False) P (s.world.plan x)) :
    ∃ (p : Plan α) (r : Router Formula), P p ∧ r.Coherent s.world.catalog.registry ∧
      s.step x = (.ok p.answer, ⟨s.world.apply p.change, r.apply p.change⟩) := by
  obtain ⟨houtcome, hrouter⟩ := hP s.router hs
  obtain ⟨e, r, hplan, -⟩ | ⟨p, r, hplan, hstep⟩ := s.step_cases x
  · rw [hplan] at houtcome
    cases houtcome with
    | error h => exact h.elim
  · rw [hplan] at houtcome hrouter
    exact ⟨p, r, houtcome.answer rfl, hrouter, hstep⟩

variable {s : Session ℝ} {f : Family} {a : String} {x : Argument ℝ} {h : Held ℝ} {v w : Vec3 ℝ}

/-- The register names an element of numbers, and what the tables make of them for a logarithm is
`w`. -/
structure HasLogarithm (s : Session ℝ) (f : Family) (a : String) (w : Vec3 ℝ) : Prop where
  registry : s.world.context.registry = Catalog.builtinRegistry
  router : s.router.Coherent s.world.catalog.registry
  tolerant : s.world.settings.Tolerant
  element : ∃ e h m, s.world.store.ref a = .ok (.element e) ∧
    s.world.store.subject e = .ok ⟨f.concreteClass, h⟩ ∧ h.datum = .numeric m ∧
    m.shape = f.shape ∧ f.logarithm s.world.settings.eps m = .ok w.toGrid

/-- The exponential of a vector of numbers is made. -/
theorem Regular.step_exp (hs : s.Regular) (htolerant : s.world.settings.Tolerant)
    (hx : s.world.matrixOf x = .ok h) (hh : h.datum = .numeric v.toGrid)
    (hf : f.Returns s.world.settings.eps v w) (a : String) :
    ∃ y t, s.step (.exp a f.elementClass.name x) = (.ok y, t) ∧ t.HasLogarithm f a w := by
  have hreg : s.world.context.registry = Catalog.builtinRegistry := hs.world.catalog.registry
  -- the plan holds a new element whose data has the vector for its logarithm
  have hplan : Fulfils s.world.catalog.registry (fun _ => False) (fun p => ∃ k m,
      p.change = .bindElement a f.concreteClass k ∧ k.home = none ∧ k.datum = .numeric m ∧
        m.shape = f.shape ∧ f.logarithm s.world.settings.eps m = .ok w.toGrid)
      (s.world.plan (.exp a f.elementClass.name x)) := by
    refine .read_ok (hs.world.catalog.classNamed_elementClass f) (.read_ok hx ?_)
    refine .bind (Context.exp_of_numbers hreg htolerant hh hf) ?_
    rintro ⟨c, k⟩ ⟨rfl, hhome, m, hm⟩
    exact .pure ⟨k, m, rfl, hhome, hm⟩
  obtain ⟨p, r, ⟨k, m, hchange, hhome, hm, hnumbers⟩, hr, hstep⟩ :=
    step_of_fulfils hs.coherent hplan
  rw [hchange] at hstep
  refine ⟨_, _, hstep, hreg, hr, htolerant, _, _, m, ?_,
    Store.subject_bindElement_self _ _ _ hhome, congrArg (Datum.stamp _) hm, hnumbers⟩
  show (s.world.store.bindElement a f.concreteClass k).ref a = _
  unfold Store.ref
  rw [Store.bindElement_of_new _ _ _ hhome, Table.get?_insert_self]

/-- The logarithm of an element of numbers is answered. -/
theorem HasLogarithm.step_log (hs : s.HasLogarithm f a w) (d : String) :
    (s.step (.log d a)).1 = .ok (.matrix (Datum.numeric w.toGrid).shown) := by
  obtain ⟨e, h, m, ha, he, hh, hm, hlog⟩ := hs.element
  have hplan : Fulfils s.world.catalog.registry (fun _ => False)
      (fun p => p.answer = .matrix (Datum.numeric w.toGrid).shown) (s.world.plan (.log d a)) := by
    refine .read_ok ha (.read_ok he ?_)
    refine .bind (Context.log_of_numbers hs.registry hs.tolerant hh hm hlog) fun k hk => .pure ?_
    show Answer.matrix k.datum.shown = _
    rw [hk]
  obtain ⟨p, r, hp, -, hstep⟩ := step_of_fulfils hs.router hplan
  rw [hstep, ← hp]

/-- **There and back.** An exponential is made, and its logarithm is answered. -/
theorem Regular.log_of_exp (hs : s.Regular) (htolerant : s.world.settings.Tolerant)
    (hx : s.world.matrixOf x = .ok h) (hh : h.datum = .numeric v.toGrid)
    (hf : f.Returns s.world.settings.eps v w) (a d : String) :
    ∃ y, (s.run [.exp a f.elementClass.name x, .log d a]).1 =
      [.ok y, .ok (.matrix (Datum.numeric w.toGrid).shown)] := by
  obtain ⟨y, t, hstep, ht⟩ := hs.step_exp htolerant hx hh hf a
  refine ⟨y, ?_⟩
  show [(s.step _).1, ((s.step _).2.step _).1] = _
  rw [hstep, ht.step_log]

/-- **Principal vectors.** After a run that keeps the tables, take a vector of numbers that is not
near zero, and whose angle less whole turns is neither near zero nor a half turn. A matrix, a
quaternion or parameters made of it have its principal vector for their logarithm, and so have Euler
angles unless the matrix is near a gimbal lock. The principal vector is the vector itself if that is
shorter than a half turn. An element that keeps the rotation vector returns every vector as it is.
-/
theorem exponentials_of_run (settings : Settings ℝ) (xs : List (Step ℝ))
    (hxs : ∀ x ∈ xs, x.KeepsTables) :
    let s := ((⟨{ settings := settings }, {}⟩ : Session ℝ).run xs).2
    s.world.settings.eps ≤ 1 / 2500 → s.world.settings.Tolerant →
    ∀ (x : Argument ℝ) (h : Held ℝ) (v : Vec3 ℝ) (a d : String),
      s.world.matrixOf x = .ok h → h.datum = .numeric v.toGrid →
      (v.Generic → ∀ f : Family, f ≠ .rotationVector →
        (f = .euler → |(RotationVector.toMat3 v).zx| ≤ 1 - EulerAngles.gimbalTolerance) →
        ∃ y, (s.run [.exp a f.elementClass.name x, .log d a]).1 =
          [.ok y, .ok (.matrix (Datum.numeric v.principal.toGrid).shown)]) ∧
      (v.Generic → v.norm < Real.pi → v.principal = v) ∧
      ∃ y, (s.run [.exp a Family.rotationVector.elementClass.name x, .log d a]).1 =
        [.ok y, .ok (.matrix (Datum.numeric v.toGrid).shown)] := by
  intro s heps htolerant x h v a d hx hh
  have hs : s.Regular := regular_run settings xs hxs
  refine ⟨fun hv f hf heuler => ?_, fun hv hlt => ?_, ?_⟩
  · exact hs.log_of_exp htolerant hx hh (Family.returns_principal hf heps hv heuler) a d
  · exact Vec3.principal_of_lt_pi (by linarith [hv.long]) hlt
  · -- the vector itself is stored, and no turns are taken off
    exact hs.log_of_exp htolerant hx hh (Family.returns_of_rotationVector _ v) a d

/-- A vector of more than a half turn. -/
noncomputable def wide : Vec3 ℝ := ⟨lit 0, lit 0, lit 4⟩

/-- The chain of a logarithm is remembered, and the vector is there as an object. -/
noncomputable def wideRun : List (Step ℝ) :=
  [.new "a" "Quat" none, .log "v" "a", .new "b" "AngleAxis" (some (.data (.ok wide.toGrid))),
   .getData "w" "b"]

theorem norm_wide : wide.norm = 4 := by
  apply Vec3.norm_of_dot_self (by norm_num)
  norm_num [Vec3.dot_eq, wide]

/-- Less one turn it is shorter than a half turn. -/
theorem reducedAngle_wide : wide.reducedAngle = 4 - 2 * Real.pi := by
  rw [Vec3.reducedAngle, norm_wide]
  apply Real.Angle.toReal_coe_eq_self_sub_two_pi_iff.2
  constructor <;> linarith [Real.pi_gt_three, Real.pi_lt_four]

/-- Of a vector that is four long, the logarithm of the exponential is the vector with a turn taken
off. It points the other way. -/
theorem logarithm_of_exponential_after_wideRun :
    (∀ x ∈ wideRun, x.KeepsTables) ∧
      let s := ((⟨{ settings := .initial }, {}⟩ : Session ℝ).run wideRun).2
      s.world.settings.eps ≤ 1 / 2500 ∧ s.world.settings.Tolerant ∧ wide.Generic ∧
      (∃ h, s.world.matrixOf (.register "w") = .ok h ∧ h.datum = .numeric wide.toGrid) ∧
      wide.principal = ⟨0, 0, 4 - 2 * Real.pi⟩ ∧
      ∃ y, (s.run [.exp "e" "Mrp" (.register "w"), .log "d" "e"]).1 =
        [.ok y, .ok (.matrix (Datum.numeric wide.principal.toGrid).shown)] := by
  have hxs : ∀ x ∈ wideRun, x.KeepsTables := by
    simp only [wideRun, List.forall_mem_cons]
    exact ⟨trivial, trivial, trivial, trivial, List.forall_mem_nil _⟩
  have heps : (Settings.initial : Settings ℝ).eps ≤ 1 / 2500 := by
    rw [eps_initial]
    norm_num
  -- the angle four is more than half a turn and less than a whole one
  have hneg : 4 - 2 * Real.pi < 0 := by linarith [Real.pi_gt_three]
  have hgeneric : wide.Generic := by
    refine ⟨?_, ?_, ?_⟩
    · rw [norm_wide]
      norm_num
    · rw [reducedAngle_wide, abs_of_neg hneg]
      linarith [Real.pi_gt_three]
    · rw [reducedAngle_wide, abs_of_neg hneg]
      linarith [Real.pi_lt_four]
  have hprincipal : wide.principal = ⟨0, 0, 4 - 2 * Real.pi⟩ := by
    rw [Vec3.principal, norm_wide, reducedAngle_wide, Vec3.smul_eq]
    ext <;> simp [wide]
  have hanswers := exponentials_of_run .initial wideRun hxs heps (.inl rfl) (.register "w") _ wide
    "e" "d" rfl rfl
  refine ⟨hxs, heps, .inl rfl, hgeneric, ⟨_, rfl, rfl⟩, hprincipal, ?_⟩
  have hfamily : Family.rodrigues ≠ .euler := by decide
  exact hanswers.1 hgeneric .rodrigues (by decide) fun h => absurd h hfamily

end Session

end Attitude
