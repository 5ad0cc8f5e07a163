import Attitude.Proofs.Session.Carrying
import Attitude.Proofs.Session.Freshness
import Attitude.Proofs.Session.Regularity

/-!
# Plans in regular worlds

A step that registers no conversions and defines no classes plans a change that a regular world
allows (`World.Regular.plan_allowed`), so a run of such steps goes through regular worlds only
(`Session.regular_run`). The statement about plans goes through them part by part: what is read from
a regular world is regular, and what operations make of it is new.
-/

namespace Attitude

open Asking

variable {α : Type}

/-- A register with an element names it. -/
theorem Store.ref_of_elementId {s : Store α} {r : String} {e : ElementId}
    (he : s.elementId r = .ok e) : s.ref r = .ok (.element e) := by
  obtain ⟨x, hx, he⟩ := exists_of_bind_eq_ok he
  cases x with
  | element e' =>
    cases he
    exact hx
  | matrix m => cases he

/-- A register that names an element has it. -/
theorem Store.elementId_of_ref {s : Store α} {e : ElementId} {r : String}
    (he : s.ref r = .ok (.element e)) : s.elementId r = .ok e := by
  simp only [elementId, he]
  rfl

/-- A register of an element is an argument that is an element. -/
theorem World.elementOf?_of_named {w : World α} {r : String} {a : Subject α}
    (ha : w.store.named r = .ok a) : w.elementOf? (.register r) = .ok (some a) := by
  obtain ⟨e, he, ha⟩ := exists_of_bind_eq_ok ha
  have hr : w.store.ref r = .ok (.element e) := Store.ref_of_elementId he
  simp only [World.elementOf?, hr, ha, bind, Except.bind, pure, Except.pure]

/-- What a change does to the router leaves it answering as before. -/
theorem Router.Coherent.apply {r : Router Formula} {reg : Registry Formula} (hr : r.Coherent reg)
    (c : Change α) : (r.apply c).Coherent reg := by
  cases c with
  | extend catalog event =>
    cases event with
    | none => exact hr
    | some event => exact Router.coherent_of_empty rfl
  | drainLog => exact fun src dst => (Router.answer_drained reg r src dst).trans (hr src dst)
  | _ => exact hr

variable [Ground α] {w : World α} {s : Store α}

/-- A step that leaves traits, conversions and classes as they are. -/
def Step.KeepsTables : Step α → Prop
  | .declare (.tag _ _) => True
  | .declare _ => False
  | _ => True

/-! ## Reading -/

namespace Store

/-- An element of a regular store is a regular one. -/
theorem Regular.subject (hs : s.Regular) {e : ElementId} {a : Subject α}
    (ha : s.subject e = .ok a) : a.Regular ∧ ∃ c, s.cell e = .ok c ∧ c.cls = a.cls := by
  obtain ⟨c, x, hc, hx, rfl⟩ := subject_eq_ok_iff.1 ha
  obtain ⟨y, hy, hshape⟩ := (hs.elements _ c hc).data
  obtain rfl : x = y := Option.some.inj (hx.symm.trans hy)
  exact ⟨⟨(hs.elements _ c hc).cls, hshape, hs.legible _ x hx⟩, c, cell_eq_ok_iff.2 hc, rfl⟩

theorem Regular.named (hs : s.Regular) {r : String} {a : Subject α} (ha : s.named r = .ok a) :
    a.Regular := by
  obtain ⟨e, -, ha⟩ := exists_of_bind_eq_ok ha
  exact (hs.subject ha).1

/-- Matrix objects can be read as data of their shape. -/
theorem Regular.sheet (hs : s.Regular) {m : MatrixId} {x : Sheet α} (hx : s.sheet m = .ok x) :
    x.datum.Legible :=
  hs.legible _ x (sheet_eq_ok_iff.1 hx)

/-- What an object holds can be read as data of its shape. -/
theorem Regular.held (hs : s.Regular) {m : MatrixId} {h : Held α} (hh : s.held m = .ok h) :
    h.datum.Legible := by
  obtain ⟨x, hx, hh⟩ := exists_of_bind_eq_ok hh
  cases hh
  exact hs.sheet hx

end Store

namespace World

/-- Arguments can be read as data of their shape. -/
theorem Regular.matrixOf (hw : w.Regular) {x : Argument α} {h : Held α}
    (hh : w.matrixOf x = .ok h) : h.datum.Legible :=
  Datum.closed_legible.matrixOf hw.store.legible hh

/-- Arguments that are elements are regular. -/
theorem Regular.elementOf? (hw : w.Regular) {x : Argument α} {o : Option (Subject α)}
    (ho : w.elementOf? x = .ok o) : ∀ b ∈ o, b.Regular := by
  cases x with
  | register r =>
    obtain ⟨y, -, ho⟩ := exists_of_bind_eq_ok ho
    cases y with
    | element e =>
      obtain ⟨b, hb, ho⟩ := exists_of_bind_eq_ok ho
      cases ho
      rintro _ ⟨⟩
      exact (hw.store.subject hb).1
    | matrix m => cases ho; nofun
  | _ => cases ho; nofun

theorem Regular.operand (hw : w.Regular) {x : Argument α} {b : Subject α}
    (hb : w.operand x = .ok b) : b.Regular := by
  obtain ⟨o, ho, hb⟩ := exists_of_bind_eq_ok hb
  cases o with
  | none => cases hb
  | some b' =>
    cases hb
    exact hw.elementOf? ho b rfl

/-! ## Plans -/

/-- The rule for a step that begins with the element that its register names. -/
theorem Regular.readElement (hw : w.Regular) {reg : Registry Formula} {P : Plan α → Prop}
    {r : String} {f : ElementId → Subject α → Asking (Plan α)}
    (hf : ∀ e c a, w.store.ref r = .ok (.element e) → w.store.cell e = .ok c → c.cls = a.cls →
      a.Regular → Fulfils reg (fun _ => True) P (f e a)) :
    Fulfils reg (fun _ => True) P
      (liftM (w.store.elementId r) >>= fun e => liftM (w.store.subject e) >>= f e) := by
  refine .read (.self _) fun e he => .read (.self _) fun a ha => ?_
  obtain ⟨hregular, c, hc, hcls⟩ := hw.store.subject ha
  exact hf e c a (Store.ref_of_elementId he) hc hcls hregular

section Plans

variable [LawfulDifferences α]

/-- The data that an element is made with is new, and has the shape of the family. -/
theorem Regular.makeData (hw : w.Regular) {c : ConcreteClass} (hc : c.Regular)
    (x : Option (Argument α)) :
    Fulfils w.context.registry (fun _ => True) (Held.IsNew c.family.shape) (w.makeData c x) := by
  have hreg : w.context.registry = Catalog.builtinRegistry := hw.catalog.registry
  unfold World.makeData
  split
  · exact .pure (c.family.identity_new _)
  · exact .pure (c.family.identity_new _)
  · refine .read (.self _) fun o ho => ?_
    cases o with
    | some b =>
      exact (Context.dataFor_new hreg (hw.elementOf? ho b rfl) hc).weaken
    | none =>
      exact .read (.self _) fun h hh => .lift (Context.takeData_new hreg hc (hw.matrixOf hh))

/-- **Plans.** A step that leaves the tables as they are plans a change that is allowed. -/
theorem Regular.plan_allowed (hw : w.Regular) {x : Step α} (hx : x.KeepsTables) :
    Fulfils w.context.registry (fun _ => True) (fun p => p.change.Allowed w x) (w.plan x) := by
  have hreg : w.context.registry = Catalog.builtinRegistry := hw.catalog.registry
  have hs := hw.store
  have hclass {cls : ElementClass} {c : ConcreteClass} {name : String}
      (hcls : w.catalog.classNamed name = .ok cls) (hc : cls.concrete = .ok c) : c.Regular :=
    (hw.catalog.classNamed hcls).of_concrete hc
  cases x with
  | new dst cls x =>
    exact .read (.self _) fun _ hcls => .read (.self _) fun c hc =>
      .bind (hw.makeData (hclass hcls hc) x) fun _ hh =>
        .pure (.bindElement dst (hclass hcls hc) hh)
  | identity dst cls type =>
    exact .read (.self _) fun _ hcls => .read (.self _) fun c hc =>
      .pure (.bindElement dst (hclass hcls hc) (c.family.identity_new _))
  | random dst cls x y z t =>
    exact .read (.self _) fun _ hcls => .read (.self _) fun c hc => .read (.self _) fun q _ =>
      .read (Context.takeDraw_new hreg (hclass hcls hc) q) fun _ hh =>
        .pure (.bindElement dst (hclass hcls hc) hh)
  | exp dst cls x =>
    exact .read (.self _) fun _ hcls => .read (.self _) fun _ hv =>
      .bind (Context.exp_new hreg (hw.catalog.classNamed hcls) (hw.matrixOf hv)) fun _ hp =>
        .pure (.bindElement dst hp.1 hp.2)
  | log dst a =>
    refine .read (.self _) fun y _ => ?_
    cases y with
    | element e =>
      exact .read (.self _) fun a ha =>
        .bind (.of_ensures (Datum.closed_legible.convert (hs.subject ha).1.fits.legible
          w.context _ _)) fun _ hh => .pure (.bindMatrix dst hh)
    | matrix m =>
      exact .read (.self _) fun _ _ => .read (.self _) fun _ hd =>
        .pure (.bindMatrix dst (Datum.legible_of_apply hd))
  | rotationMatrix dst a =>
    exact .read (.self _) fun a ha =>
      .read (Datum.closed_legible.toCanonical (hs.named ha).fits.legible _) fun _ hh =>
        .pure (.bindMatrix dst hh)
  | angle dst a =>
    exact .read (.self _) fun a ha =>
      .read (Datum.closed_legible.angle (hs.named ha).fits.legible) fun _ hh =>
      .pure (.bindMatrix dst hh)
  | shadow dst a =>
    exact .read (.self _) fun a ha =>
      .read (Datum.closed_legible.shadow (hs.named ha).fits.legible) fun _ hh =>
        .pure (.bindMatrix dst hh)
  | coordinates dst a encoding =>
    exact .read (.self _) fun a ha =>
      .bind (.of_ensures (Datum.closed_legible.convert (hs.named ha).fits.legible
        w.context _ _)) fun _ hh => .pure (.bindMatrix dst hh)
  | getData dst a =>
    exact .read (.self _) fun a ha => .pure (.bindMatrix dst (hs.named ha).fits.legible)
  | mul dst a x =>
    refine .read (.self _) fun y _ => ?_
    cases y with
    | element e =>
      refine .read (.self _) fun a ha => .read (.self _) fun b hb => ?_
      -- the product is that of a copy, which is an element of the same class
      have ha := (hs.subject ha).1
      exact .bind (Context.copy_regular hreg ha).weaken fun _ hcopy =>
        .bind (Context.mul_new hreg hcopy (hw.operand hb)).weaken fun _ hh =>
          .pure (.bindElement dst ha.cls hh)
    | matrix m =>
      exact .read (Datum.closed_legible.entrywiseProductOf hs.legible m x) fun _ hh =>
        .pure (.bindMatrix dst hh)
  | mulInPlace a x =>
    refine .read (.self _) fun y hy => ?_
    cases y with
    | element e =>
      refine .read (.self _) fun s ha => .read (.self _) fun b hb => ?_
      obtain ⟨ha, c, hc, hcls⟩ := hs.subject ha
      exact .bind (Context.mul_new hreg ha (hw.operand hb)).weaken fun _ hh =>
        .pure (.replaceData ⟨a, rfl, hy⟩ hc (hcls ▸ hh))
    | matrix m =>
      exact .read (Datum.closed_legible.entrywiseProductOf hs.legible m x) fun _ hh =>
        .pure (.bindMatrix a hh)
  | invert a =>
    refine hw.readElement fun e c s hr hc hcls ha => ?_
    exact .read (Context.inv_new hreg ha).weaken fun _ hh =>
      .pure (.replaceData ⟨a, rfl, hr⟩ hc (hcls ▸ hh))
  | inverse dst a =>
    refine .read (.self _) fun s ha => ?_
    have ha := hs.named ha
    exact .bind (Context.copy_regular hreg ha).weaken fun _ hcopy =>
      .read (Context.inv_new hreg hcopy).weaken fun _ hh => .pure (.bindElement dst ha.cls hh)
  | canonical dst a =>
    refine hw.readElement fun e c s _ hc _ ha => .read (.self _) fun b _ => ?_
    cases b with
    | true =>
      -- the element itself is bound, and nothing is made
      exact .pure (.bind dst hc)
    | false =>
      refine .read (.self _) fun ⟨t, traits⟩ _ => .read (.self _) fun cls hcls =>
        .read (.self _) fun c hc => ?_
      have hc := (hw.catalog.holder hcls).of_concrete hc
      exact .bind (Context.dataFor_new hreg ha hc).weaken fun _ hh => .pure (.bindElement dst hc hh)
  | cast dst a type =>
    refine .read (.self _) fun s ha => ?_
    have ha := hs.named ha
    cases type with
    | none => exact .throw trivial
    | some t =>
      refine .read (.self _) fun y hy => .pure (.bindElement dst ha.cls ⟨?_, rfl⟩)
      obtain ⟨d, hd, hy⟩ := exists_of_bind_eq_ok hy
      cases hy
      exact ha.fits.shape ▸ ha.fits.legible.cast hd
  | assign dst a b =>
    refine hw.readElement fun e c s hr hc hcls ha => .read (.self _) fun t ht => ?_
    exact .bind (Context.dataFor_new hreg (hs.named ht) ha.cls).weaken fun _ hh =>
      .pure (.assign dst ⟨a, rfl, hr⟩ hc (hcls ▸ hh))
  | setData a x =>
    refine hw.readElement fun e c s hr hc hcls ha => .read (.self _) fun h hh => ?_
    exact .read (Context.takeData_new hreg ha.cls (hw.matrixOf hh)) fun _ hk =>
      .pure (.replaceData ⟨a, rfl, hr⟩ hc (hcls ▸ hk))
  | setMatrix a x =>
    refine hw.readElement fun e c s hr hc hcls ha => .read (.self _) fun h hh => ?_
    exact .read (Context.takeMatrix_new hreg ha.cls (hw.matrixOf hh)) fun _ hk =>
      .pure (.replaceData ⟨a, rfl, hr⟩ hc (hcls ▸ hk))
  | setIdentity a type =>
    refine hw.readElement fun e c s hr hc hcls _ => ?_
    exact .pure (.replaceData ⟨a, rfl, hr⟩ hc (hcls ▸ s.cls.family.identity_new _))
  | setRandom a x y z t =>
    refine hw.readElement fun e c s hr hc hcls ha => .read (.self _) fun q _ => ?_
    exact .read (Context.takeDraw_new hreg ha.cls q) fun _ hh =>
      .pure (.replaceData ⟨a, rfl, hr⟩ hc (hcls ▸ hh))
  | poke r p v =>
    refine .read (.self _) fun y hy => ?_
    cases y with
    | matrix m =>
      exact .read (.self _) fun _ hx => .read (.self _) fun _ hz => .pure (.overwrite rfl hy hx hz)
    | element e => exact .throw trivial
  | hat dst x =>
    exact .read (.self _) fun _ hh =>
      .read (Datum.closed_legible.applyFormula (hw.matrixOf hh) _) fun _ hk =>
        .pure (.bindMatrix dst hk)
  | vee dst x =>
    exact .read (.self _) fun _ hh =>
      .read (Datum.closed_legible.applyFormula (hw.matrixOf hh) _) fun _ hk =>
        .pure (.bindMatrix dst hk)
  | convert dst x source target =>
    exact .read (.self _) fun _ hh =>
      .bind (.of_ensures (Datum.closed_legible.convert (hw.matrixOf hh) w.context _ _)) fun _ hk =>
        .pure (.bindMatrix dst hk)
  | toCanonical dst x tag =>
    exact .read (.self _) fun _ hh =>
      .read (Datum.closed_legible.toCanonical (hw.matrixOf hh) _) fun _ hk =>
        .pure (.bindMatrix dst hk)
  | fromCanonical dst x tag =>
    exact .read (.self _) fun _ hh =>
      .read (Datum.closed_legible.fromCanonical (hw.matrixOf hh) _) fun _ hk =>
        .pure (.bindMatrix dst hk)
  | ask q => exact .bind (.of_ensures (w.answer_asks q)) fun _ _ => .pure .none
  | declare d =>
    refine .read (.self _) fun r hr => ?_
    cases Catalog.accepted_of_declare hr with
    | tag name ofRotations => exact .pure (.extend _ (hw.catalog.declareTag name ofRotations))
    | _ => exact hx.elim
  | configure change => exact .pure (.configure change)
  | drainLog => exact fun r hr => ⟨.ok .drainLog, hr⟩

end Plans

end World

/-! ## Steps and runs -/

/-- A regular world, and a router that answers from the tables. -/
structure Session.Regular (s : Session α) : Prop where
  world : s.world.Regular
  router : s.router.Coherent Catalog.builtinRegistry

namespace Session

/-- Before the first step the session is regular. -/
theorem regular_empty (settings : Settings α) :
    Session.Regular (⟨{ settings := settings }, {}⟩ : Session α) :=
  ⟨World.regular_empty settings, Router.coherent_of_empty rfl⟩

variable [LawfulDifferences α]

/-- **Steps.** A session is regular after a step that leaves the tables as they are. -/
theorem Regular.step {s : Session α} (hs : s.Regular) {x : Step α} (hx : x.KeepsTables) :
    (s.step x).2.Regular := by
  have hreg : s.world.context.registry = Catalog.builtinRegistry := hs.world.catalog.registry
  obtain ⟨houtcome, hrouter⟩ := hs.world.plan_allowed hx s.router (hreg ▸ hs.router)
  rw [hreg] at hrouter
  obtain ⟨e, r, hplan, hstep⟩ | ⟨p, r, hplan, hstep⟩ := s.step_cases x
  · rw [hplan] at hrouter
    rw [hstep]
    exact ⟨hs.world, hrouter⟩
  · rw [hplan] at houtcome hrouter
    rw [hstep]
    exact ⟨hs.world.apply (houtcome.answer rfl), hrouter.apply _⟩

/-- A step that succeeds makes an allowed change, which is one that it plans. -/
theorem Regular.step_of_ok {s : Session α} (hs : s.Regular) {x : Step α} (hx : x.KeepsTables)
    {P : Plan α → Prop} (hP : Ensures s.world.catalog.registry P (s.world.plan x)) {a : Answer α}
    (ha : (s.step x).1 = .ok a) : ∃ p, P p ∧ p.change.Allowed s.world x ∧
      (s.step x).2.world = s.world.apply p.change := by
  have hreg : s.world.context.registry = Catalog.builtinRegistry := hs.world.catalog.registry
  obtain ⟨hallowed, -⟩ := hs.world.plan_allowed hx s.router (hreg ▸ hs.router)
  obtain ⟨-, hplanned⟩ := hP s.router
  obtain ⟨e, r, -, hstep⟩ | ⟨p, r, hplan, hstep⟩ := s.step_cases x
  · rw [hstep] at ha
    cases ha
  · rw [hplan] at hallowed hplanned
    exact ⟨p, hplanned p rfl, hallowed.answer rfl, by rw [hstep]⟩

/-- **Runs.** A run of steps that leave the tables as they are goes through regular sessions. -/
theorem regular_run (settings : Settings α) (xs : List (Step α)) (hxs : ∀ x ∈ xs, x.KeepsTables) :
    ((⟨{ settings := settings }, {}⟩ : Session α).run xs).2.Regular :=
  run_invariant (fun _ _ hx hs => hs.step hx) xs _ hxs (regular_empty settings)

end Session

end Attitude
