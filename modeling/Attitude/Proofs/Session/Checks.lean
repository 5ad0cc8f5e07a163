import Attitude.Proofs.Elements.Checks
import Attitude.Proofs.Scalar.Doubles
import Attitude.Proofs.Session.Planning

/-!
# Sessions with checks and without

Checks are a setting. Whatever a session has come to by steps that leave the tables as they are, the
next step does with checks what it does without, or it is refused and leaves everything as it was
(`Session.checks_of_run`). With a tolerance that is not negative only the steps that take data can
be refused, and the vector of a matrix.
-/

namespace Attitude

open Asking

variable {α : Type}

/-- The world with checks or without. -/
def World.withChecks (w : World α) (b : Bool) : World α :=
  { w with settings := w.settings.withChecks b }

/-- The session with checks or without. -/
def Session.withChecks (s : Session α) (b : Bool) : Session α :=
  { s with world := s.world.withChecks b }

/-- A step that takes data, or the vector of a matrix. -/
def Step.Checked : Step α → Prop
  | .new _ _ _ | .random .. | .exp .. | .setData .. | .setMatrix .. | .setRandom ..
  | .vee .. => True
  | _ => False

/-- Whether data is checked after the step. -/
def Step.checksAfter (b : Bool) : Step α → Bool
  | .configure (.checks c) => c
  | _ => b

variable [Ground α] [LawfulDifferences α]

/-! ## Plans -/

namespace World

variable {w : World α} {p : Prop}

/-- Checks can refuse the data that an element is made with, and change it in no other way. -/
theorem Regular.makeData_guarded (hw : w.Regular) {c : ConcreteClass} (hc : c.Regular)
    (x : Option (Argument α)) :
    Asking.Guarded w.context.registry (w.settings.Rejects True)
      ((w.withChecks true).makeData c x) ((w.withChecks false).makeData c x) := by
  have hreg : w.context.registry = Catalog.builtinRegistry := hw.catalog.registry
  unfold World.makeData
  split
  · exact .pure _
  · exact .pure _
  · refine .read_same fun o _ => ?_
    cases o with
    | some b => exact Context.coordinates_guarded hreg b c.key
    | none =>
      exact .read_same fun h hh => .lift (Context.takeData_guarded hreg hc (hw.matrixOf hh))

/-- Comparisons are made between matrices, and no check comes in. -/
theorem Regular.comparison_guarded (hw : w.Regular) (equal : Bool) (a : String) (x : Argument α) :
    Guarded (w.settings.Rejects p) ((w.withChecks true).comparison equal a x)
      ((w.withChecks false).comparison equal a x) := by
  have hreg : w.context.registry = Catalog.builtinRegistry := hw.catalog.registry
  refine .bind_same fun y _ => ?_
  cases y with
  | element e =>
    refine .bind_same fun s _ => .bind_same fun o _ => ?_
    cases o with
    | some b => exact .bind (Context.equal_guarded hreg s b) fun _ _ => .same _
    | none => exact .same _
  | matrix m => exact .same _

/-- Questions are answered alike. Only a conversion within may be refused. -/
theorem Regular.answer_guarded (hw : w.Regular) (q : Question α) :
    Asking.Guarded w.context.registry (w.settings.Rejects p) ((w.withChecks true).answer q)
      ((w.withChecks false).answer q) := by
  have hreg : w.context.registry = Catalog.builtinRegistry := hw.catalog.registry
  cases q with
  | equal a x => exact .lift (hw.comparison_guarded true a x)
  | unequal a x => exact .lift (hw.comparison_guarded false a x)
  | isClose a b tol =>
    exact .read_same fun _ _ => .read_same fun _ _ =>
      .read (Context.isClose_guarded hreg _ _ _) fun _ _ => .pure _
  | isIdentity a tol =>
    exact .read_same fun _ _ => .read (Context.isClose_guarded hreg _ _ _) fun _ _ => .pure _
  | _ => exact .of_asks ((w.withChecks true).answer_asks _)

/-- **Plans.** With checks a step plans what it plans without, or it is refused. -/
theorem Regular.plan_guarded (hw : w.Regular) (x : Step α) :
    Asking.Guarded w.context.registry (w.settings.Rejects x.Checked)
      ((w.withChecks true).plan x) ((w.withChecks false).plan x) := by
  have hreg : w.context.registry = Catalog.builtinRegistry := hw.catalog.registry
  -- a class that a step names is one that conversions end at
  have hclass {cls : ElementClass} {c : ConcreteClass} {name : String}
      (hcls : w.catalog.classNamed name = .ok cls) (hc : cls.concrete = .ok c) : c.Regular :=
    (hw.catalog.classNamed hcls).of_concrete hc
  have hconvert (h : Held α) (src dst : Key) :
      Asks w.context.registry ((w.withChecks false).context.convert h src dst) :=
    (w.withChecks false).context.convert_asks h src dst
  cases x with
  | new dst cls x =>
    exact .read_same fun _ hcls => .read_same fun c hc =>
      .bind (hw.makeData_guarded (hclass hcls hc) x) ((w.withChecks false).makeData_asks c x)
        fun _ => .pure _
  | random dst cls x y z t =>
    exact .read_same fun _ hcls => .read_same fun c hc => .read_same fun q _ =>
      .read (Context.takeDraw_guarded hreg (hclass hcls hc) q) fun _ _ => .pure _
  | exp dst cls x =>
    exact .read_same fun k hk => .read_same fun v hv =>
      .bind (Context.exp_guarded hreg (hw.catalog.classNamed hk) (hw.matrixOf hv))
        ((w.withChecks false).context.exp_asks k v) fun _ => .pure _
  | log dst a =>
    refine .read_same fun y _ => ?_
    cases y with
    | element e =>
      exact .read_same fun a _ => .bind (Context.coordinates_guarded hreg a _) (hconvert _ _ _)
        fun _ => .pure _
    | matrix m => exact .read_same fun _ _ => .read_same fun _ _ => .pure _
  | rotationMatrix dst a =>
    exact .read_same fun a _ => .read (Context.rotationMatrix_guarded hreg a) fun _ _ => .pure _
  | shadow dst a =>
    exact .read_same fun a _ => .read (w.context.shadow_guarded a) fun _ _ => .pure _
  | coordinates dst a encoding =>
    exact .read_same fun a _ => .bind (Context.coordinates_guarded hreg a _) (hconvert _ _ _)
      fun _ => .pure _
  | mul dst a x =>
    refine .read_same fun y _ => ?_
    cases y with
    | element e =>
      exact .read_same fun s _ => .read_same fun b _ =>
        .bind (Context.coordinates_guarded hreg s _) (hconvert _ _ _) fun copy =>
          .bind (Context.mul_guarded hreg _ b) ((w.withChecks false).context.mul_asks _ b)
            fun _ => .pure _
    | matrix m => exact .of_asks (.read fun _ => .pure trivial)
  | mulInPlace a x =>
    refine .read_same fun y _ => ?_
    cases y with
    | element e =>
      exact .read_same fun s _ => .read_same fun b _ =>
        .bind (Context.mul_guarded hreg s b) ((w.withChecks false).context.mul_asks s b)
          fun _ => .pure _
    | matrix m => exact .of_asks (.read fun _ => .pure trivial)
  | invert a =>
    exact .read_same fun e _ => .read_same fun s _ =>
      .read (Context.inv_guarded hreg s) fun _ _ => .pure _
  | inverse dst a =>
    exact .read_same fun s _ =>
      .bind (Context.coordinates_guarded hreg s _) (hconvert _ _ _) fun copy =>
        .read (Context.inv_guarded hreg _) fun _ _ => .pure _
  | canonical dst a =>
    refine .read_same fun e _ => .read_same fun s _ => .read_same fun b _ => ?_
    cases b with
    | true => exact .pure _
    | false =>
      exact .read_same fun _ _ => .read_same fun _ _ => .read_same fun c _ =>
        .bind (Context.coordinates_guarded hreg s _) (hconvert _ _ _) fun _ => .pure _
  | assign dst a b =>
    exact .read_same fun e _ => .read_same fun s _ => .read_same fun t _ =>
      .bind (Context.coordinates_guarded hreg t _) (hconvert _ _ _) fun _ => .pure _
  | setData a x =>
    refine .read_same fun e _ => .read_same fun s hs => .read_same fun h hh => ?_
    exact .read (Context.takeData_guarded hreg (hw.store.subject hs).1.cls (hw.matrixOf hh))
      fun _ _ => .pure _
  | setMatrix a x =>
    refine .read_same fun e _ => .read_same fun s hs => .read_same fun h hh => ?_
    exact .read (Context.takeMatrix_guarded hreg (hw.store.subject hs).1.cls (hw.matrixOf hh))
      fun _ _ => .pure _
  | setRandom a x y z t =>
    refine .read_same fun e _ => .read_same fun s hs => .read_same fun q _ => ?_
    exact .read (Context.takeDraw_guarded hreg (hw.store.subject hs).1.cls q) fun _ _ => .pure _
  -- the formula of hat checks nothing, that of vee does
  | hat dst x =>
    exact .read_same fun h _ => .read (Settings.applyFormula_guarded (by decide) h) fun _ _ =>
      .pure _
  | vee dst x =>
    exact .read_same fun h _ => .read (Settings.vee_guarded h) fun _ _ => .pure _
  | convert dst x source target =>
    exact .read_same fun h _ => .bind (Context.convert_guarded hreg h _ _) (hconvert _ _ _)
      fun _ => .pure _
  | toCanonical dst x tag =>
    exact .read_same fun h _ => .read (Context.toCanonical_guarded hreg h _) fun _ _ => .pure _
  | fromCanonical dst x tag =>
    exact .read_same fun h _ => .read (Context.fromCanonical_guarded hreg h _) fun _ _ => .pure _
  | ask q =>
    exact .bind (hw.answer_guarded q) ((w.withChecks false).answer_asks q) fun _ => .pure _
  -- the others never look at the setting
  | _ => exact .of_asks ((w.withChecks true).plan_asks _)

end World

/-! ## Steps -/

/-- Whether data is checked after the change. -/
def Change.checksAfter (b : Bool) : Change α → Bool
  | .configure (.checks c) => c
  | _ => b

omit [LawfulDifferences α] in
/-- Applying a change and setting the checks commute, unless the change is to set them. -/
theorem World.apply_withChecks (w : World α) (b : Bool) (c : Change α) :
    (w.withChecks b).apply c = (w.apply c).withChecks (c.checksAfter b) := by
  cases c with
  | configure change => cases change <;> rfl
  | _ => rfl

omit [LawfulDifferences α] in
/-- What a step plans to set the checks to is what the step says. -/
theorem World.plan_checksAfter (w : World α) (x : Step α) :
    Ensures w.catalog.registry (fun p => ∀ b, p.change.checksAfter b = x.checksAfter b)
      (w.plan x) := by
  by_cases hx : x.OnObjects
  · intro r
    obtain ⟨hasked, hplanned⟩ := w.plan_ensures x r
    refine ⟨hasked, fun p hp b => ?_⟩
    -- steps on objects change objects only, so the setting stays
    have hchange : p.change.checksAfter b = b := by
      have hobjects := hplanned p hp hx
      cases hc : p.change with
      | configure => rw [hc] at hobjects; exact hobjects.elim
      | _ => rfl
    have hstep : x.checksAfter b = b := by
      cases x with
      | configure => exact hx.elim
      | _ => rfl
    exact hchange.trans hstep.symm
  · -- the other steps say themselves what they change
    cases x with
    | configure change => exact .pure fun _ => by cases change <;> rfl
    | declare d => exact .read fun _ => .pure fun _ => rfl
    | drainLog => exact fun r => ⟨.refl, fun _ h => by cases h; exact fun _ => rfl⟩
    | _ => exact absurd trivial hx

namespace Session

/-- **Steps.** With checks a step does what it does without, or it is refused. -/
theorem Regular.step_guarded {s : Session α} (hs : s.Regular) (x : Step α) :
    let on := (s.withChecks true).step x
    let off := (s.withChecks false).step x
    (on.1 = off.1 ∧ on.2 = off.2.withChecks (x.checksAfter true)) ∨
      ∃ e, on.1 = .error e ∧ s.world.settings.Rejects x.Checked e := by
  intro on off
  have hreg : s.world.context.registry = Catalog.builtinRegistry := hs.world.catalog.registry
  obtain ⟨hplan, -⟩ := hs.world.plan_guarded x s.router (hreg ▸ hs.router)
  obtain ⟨-, hchange⟩ := (s.world.withChecks true).plan_checksAfter x s.router
  obtain ⟨e, r, hon, hstep⟩ | ⟨p, r, hon, hstep⟩ := (s.withChecks true).step_cases x
  · have hrun : ((s.world.withChecks true).plan x).run s.router = (.error e, r) := hon
    obtain hsame | ⟨e', he', hrejects⟩ := hplan
    · have hoff : off = (.error e, { s.withChecks false with router := r }) :=
        Session.step_of_error (hsame.symm.trans hrun)
      have hafter : x.checksAfter true = true := by
        cases x with
        | configure change => cases hrun
        | _ => rfl
      rw [hoff, show on = _ from hstep, hafter]
      exact .inl ⟨rfl, rfl⟩
    · rw [hrun] at he'
      cases he'
      exact .inr ⟨e, by rw [show on = _ from hstep], hrejects⟩
  · have hrun : ((s.world.withChecks true).plan x).run s.router = (.ok p, r) := hon
    obtain hsame | ⟨e', he', -⟩ := hplan
    · have hoff : off = (.ok p.answer,
          ⟨(s.world.withChecks false).apply p.change, r.apply p.change⟩) :=
        Session.step_of_ok (hsame.symm.trans hrun)
      rw [hrun] at hchange
      have hworld : (s.withChecks true).world.apply p.change =
          ((s.world.withChecks false).apply p.change).withChecks (x.checksAfter true) := by
        rw [← hchange p rfl true, World.apply_withChecks]
        exact s.world.apply_withChecks true p.change
      rw [hoff, show on = _ from hstep, hworld]
      exact .inl ⟨rfl, rfl⟩
    · rw [hrun] at he'
      cases he'

/-- **Checks.** In every state of a run that leaves the tables as they are, the next step does with
checks what it does without, up to the setting itself, or it is refused by a check and leaves the
world as it was. With a tolerance that is not negative the check of a logarithm passes, and only
steps that take data and the vector of a matrix can be refused. -/
theorem checks_of_run (settings : Settings α) (xs : List (Step α))
    (hxs : ∀ x ∈ xs, x.KeepsTables) :
    let s := ((⟨{ settings := settings }, {}⟩ : Session α).run xs).2
    (∀ x,
      let on := (s.withChecks true).step x
      let off := (s.withChecks false).step x
      (on.1 = off.1 ∧ on.2 = off.2.withChecks (x.checksAfter true)) ∨
        ∃ e, on.1 = .error e ∧ e.OfCheck ∧ on.2.world = s.world.withChecks true ∧
          (Ground.le (lit 0) s.world.settings.validityTol = true → x.Checked)) ∧
    ∀ t : Settings α, Ground.le (lit 0) t.validityTol = true → ∀ h : Held α,
      h.datum.shape = [3, 3] → ∃ k, t.applyFormula .rotationVectorOfMatrix h = .ok k := by
  intro s
  have hs : s.Regular := regular_run settings xs hxs
  refine ⟨fun x => (hs.step_guarded x).imp_right ?_, fun t ht h hshape => ?_⟩
  · rintro ⟨e, he, hcheck, hchecked⟩
    exact ⟨e, he, hcheck, world_of_error he, hchecked⟩
  · -- data of the right shape is taken, and what the formula checks is what it makes skew
    have hlenient : t.Lenient := .inr ht
    obtain ⟨d, hd, -⟩ :=
      Datum.apply_of_takes (Formula.transform_takes (f := .rotationVectorOfMatrix) rfl t.eps) hshape
    have hcheck : t.checkSkew .rotationVectorOfMatrix h.datum = .ok () := by
      have hmeets := Settings.checkSkew_skewPart (s := t) hshape
      generalize t.checkSkew .rotationVectorOfMatrix h.datum = y at hmeets
      cases hmeets with
      | ok => rfl
      | error he => exact absurd he (hlenient.not_refuses _)
    rw [Settings.applyFormula_eq (by decide) (by decide), hd, hcheck]
    exact ⟨_, rfl⟩

/-- A quaternion and its logarithm, with a strict setting in between. -/
def checkedRun : List (Step Float) :=
  [.new "a" "Quat" none,
   .configure (.checks true),
   .log "v" "a"]

/-- Takes a quaternion of length two as data. -/
def stretchedStep : Step Float :=
  .new "b" "Quat" (some (.data (.ok (Quaternion.toGrid ⟨2, 0, 0, 0⟩))))

set_option maxRecDepth 10000 in
/-- With checks a quaternion of length two is refused, and without them it is taken. -/
theorem refused_after_checkedRun :
    (((initial.run checkedRun).2.withChecks true).step stretchedStep).1 =
      .error (.notRotation "Quat") ∧
    ∃ a, (((initial.run checkedRun).2.withChecks false).step stretchedStep).1 = .ok a :=
  ⟨rfl, _, rfl⟩

/-- The refused step leaves the world as it was, and a logarithm does not know the difference. -/
theorem checks_after_checkedRun :
    (∀ x ∈ checkedRun, x.KeepsTables) ∧
    (((initial.run checkedRun).2.withChecks true).step stretchedStep).2.world =
      (initial.run checkedRun).2.world.withChecks true ∧
    (((initial.run checkedRun).2.withChecks true).step (.log "w" "a")).1 =
      (((initial.run checkedRun).2.withChecks false).step (.log "w" "a")).1 ∧
    (((initial.run checkedRun).2.withChecks true).step (.log "w" "a")).2 =
      (((initial.run checkedRun).2.withChecks false).step (.log "w" "a")).2.withChecks true ∧
    Ground.le (lit 0) (initial.run checkedRun).2.world.settings.validityTol = true ∧
    ∃ k, (initial.run checkedRun).2.world.settings.applyFormula .rotationVectorOfMatrix
      (.fresh (.numeric Mat3.one.toGrid)) = .ok k := by
  have hxs : ∀ x ∈ checkedRun, x.KeepsTables := by
    simp only [checkedRun, List.forall_mem_cons]
    exact ⟨trivial, trivial, trivial, List.forall_mem_nil _⟩
  have htol : Ground.le (lit 0) (initial.run checkedRun).2.world.settings.validityTol = true := rfl
  obtain ⟨hrefused, a, ha⟩ := refused_after_checkedRun
  unfold initial at htol hrefused ha ⊢
  obtain ⟨hsteps, hlog⟩ := checks_of_run .initial checkedRun hxs
  refine ⟨hxs, ?_, ?_⟩
  · -- the answers differ, so the step was refused, which leaves the world alone
    obtain ⟨hsame, -⟩ | ⟨e, -, -, hworld, -⟩ := hsteps stretchedStep
    · cases ha.symm.trans (hsame.symm.trans hrefused)
    · exact hworld
  · -- the data is valid, so the step cannot be refused
    obtain ⟨hanswer, hstate⟩ | ⟨e, -, -, -, hchecked⟩ := hsteps (.log "w" "a")
    · exact ⟨hanswer, hstate, htol, hlog _ htol _ rfl⟩
    · exact (hchecked htol).elim

end Session

end Attitude
