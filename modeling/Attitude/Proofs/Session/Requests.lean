import Attitude.Proofs.Router.Lines
import Attitude.Proofs.Session.Asking

/-!
# What a step asks for

`World.requests` lists the chains that a step asks the router for, in their order, next to what is
looked up before. A product asks for a copy of its first factor and then for the second factor, if
that is needed in the encoding of the first; every other step asks for one chain or for none. The
legs of an encoding are never asked for.

`World.requests_of_plan` says that planning a step leaves the router after these requests. Most
parts of a plan are `Quiet`; the rules for `Requests` go through the plan and the list of requests
at once. The copy of a product is made if it is found, so it does not keep the second request from
being made.
-/

namespace Attitude

/-! ## The requests of a step -/

/-- The requests of a product in a family with a factor of the encoding `k`. -/
def Family.factorRequests (k : Key) : Family → List (Key × Key)
  | quaternion => [(k, .tag .quaternion)]
  | rodrigues => [(k, .tag .rodrigues)]
  | _ => []

namespace World

variable {α : Type}

/-- The requests for the data of an element made from an argument. -/
def dataRequests (w : World α) (c : ConcreteClass) :
    Option (Argument α) → Except Fault (List (Key × Key))
  | none | some (.gap _) => return []
  | some x => do
    match ← w.elementOf? x with
    | some b => return [(b.cls.key, c.key)]
    | none => return []

/-- The chains that a step asks for, or the reason why it fails before it asks. -/
def requests (w : World α) : Step α → Except Fault (List (Key × Key))
  | .new _ cls x => do
    let c ← (← w.catalog.classNamed cls).concrete
    w.dataRequests c x
  | .exp _ cls x => do
    let c ← w.catalog.classNamed cls
    let v ← w.matrixOf x
    if v.datum.shape = [3, 1] then return [(.tag .rotationVector, c.key)] else throw .wrongShape
  | .log _ a => do
    match ← w.store.ref a with
    | .element e => return [((← w.store.subject e).cls.key, .tag .rotationVector)]
    | .matrix _ => return []
  | .coordinates _ a encoding => do
    return [((← w.store.named a).cls.key, w.catalog.keyOfClassOrTag encoding)]
  | .mul _ a x => do
    match ← w.store.ref a with
    | .element e =>
      let s ← w.store.subject e
      let b ← w.operand x
      return (s.cls.key, s.cls.key) :: s.cls.family.factorRequests b.cls.key
    | .matrix _ => return []
  | .mulInPlace a x => do
    match ← w.store.ref a with
    | .element e =>
      let s ← w.store.subject e
      let b ← w.operand x
      return s.cls.family.factorRequests b.cls.key
    | .matrix _ => return []
  | .inverse _ a => do
    let s ← w.store.named a
    return [(s.cls.key, s.cls.key)]
  | .canonical _ a => do
    let s ← w.store.subject (← w.store.elementId a)
    if ← w.catalog.registry.isCanonical s.cls.key then return []
    let (_, traits) ← w.catalog.registry.find s.cls.key
    let c ← (← w.catalog.holder (.tag traits.canonical)).concrete
    return [(s.cls.key, c.key)]
  | .assign _ a b => do
    let s ← w.store.subject (← w.store.elementId a)
    let t ← w.store.named b
    return [(t.cls.key, s.cls.key)]
  | .convert _ x source target => do
    let _ ← w.matrixOf x
    return [(w.catalog.key source, w.catalog.key target)]
  | .ask (.route source target) => return [(w.catalog.key source, w.catalog.key target)]
  | _ => return []

end World

/-! ## Computations and their requests -/

namespace Asking

variable {β γ : Type} {reg : Registry Formula} {r : Router Formula}
  {ps : Except Fault (List (Key × Key))}

/-- The computation asks for nothing. -/
def Quiet (m : Asking β) : Prop := ∀ r, (m.run r).2 = r

/-- From `r`, the computation leaves the router after the given requests. -/
def Requests (reg : Registry Formula) (r : Router Formula)
    (ps : Except Fault (List (Key × Key))) (m : Asking β) : Prop :=
  (m.run r).2 = r.afterRequests reg (ps.toOption.getD [])

theorem Quiet.pure (b : β) : Quiet (pure b) := fun _ => rfl

theorem Quiet.throw (e : Fault) : Quiet (throw e : Asking β) := fun _ => rfl

theorem Quiet.lift (x : Except Fault β) : Quiet (liftM x) := fun _ => rfl

/-- What reads first, and makes no request afterwards. -/
theorem Quiet.read {x : Except Fault β} {f : β → Asking γ} (hf : ∀ b, Quiet (f b)) :
    Quiet (liftM x >>= f) := by
  intro r
  rw [run_bind, run_lift]
  cases x with
  | error e => rfl
  | ok b => exact hf b r

theorem Requests.of_quiet {m : Asking β} (hm : Quiet m) : Requests reg r (.ok []) m := hm r

/-- The rule for a part that only looks something up. -/
theorem Requests.read {x : Except Fault β} {f : β → Asking γ}
    {g : β → Except Fault (List (Key × Key))} (hf : ∀ b, Requests reg r (g b) (f b)) :
    Requests reg r (x >>= g) (liftM x >>= f) := by
  unfold Requests
  rw [run_bind, run_lift]
  cases x with
  | error e => rfl
  | ok b => exact hf b

/-- The rule for the last part that asks. -/
theorem Requests.then_quiet {m : Asking β} {f : β → Asking γ} (hm : Requests reg r ps m)
    (hf : ∀ b, Quiet (f b)) : Requests reg r ps (m >>= f) := by
  unfold Requests at hm ⊢
  rw [run_bind, ← hm]
  rcases m.run r with ⟨e | b, r'⟩
  · rfl
  · exact hf b r'

end Asking

open Asking

/-! ## Conversions and operations of elements -/

namespace Context

variable {α : Type} {r : Router Formula}

theorem route_requests (ctx : Context α) (src dst : Key) :
    Requests ctx.registry r (.ok [(src, dst)]) (ctx.route src dst) := by
  show r.afterRequest ctx.registry src dst = r.afterRequests ctx.registry [(src, dst)]
  cases h : r.answer ctx.registry src dst with
  | ok route => simp only [Router.afterRequests, h]
  | error e => simp only [Router.afterRequests, h, Router.afterRequest_of_error h]

variable [Ground α] (ctx : Context α)

/-- A conversion is one request, whether its formulas fail or not. -/
theorem convert_requests (h : Held α) (src dst : Key) :
    Requests ctx.registry r (.ok [(src, dst)]) (ctx.convert h src dst) :=
  (ctx.route_requests src dst).then_quiet fun _ => .lift _

/-- A conversion goes along the chain that is remembered. -/
theorem run_convert_of_remembered {src dst : Key} {route : Route Formula}
    (hroute : r.remembered? src dst = some route) (h : Held α) :
    (ctx.convert h src dst).run r = (ctx.settings.applyRoute route h, r) := by
  have hrequest : (ctx.route src dst).run r = (.ok route, r) := by
    show r.request ctx.registry src dst = (.ok route, r)
    rw [Router.request, hroute]
  rw [convert, run_bind, hrequest]
  rfl

/-- A copy that is asked for is made, so what comes next asks, too. -/
theorem copy_requests {γ : Type} (hr : r.CopiesSelf) (h : Held α) (k : Key)
    {ps : List (Key × Key)} {f : Held α → Asking γ}
    (hf : ∀ c r', Requests ctx.registry r' (.ok ps) (f c)) :
    Requests ctx.registry r (.ok ((k, k) :: ps)) (ctx.convert h k k >>= f) := by
  have hroute : (ctx.route k k).run r =
      (r.answer ctx.registry k k, r.afterRequest ctx.registry k k) := rfl
  show ((ctx.convert h k k >>= f).run r).2 = r.afterRequests ctx.registry ((k, k) :: ps)
  rw [run_bind, convert, run_bind, hroute]
  cases hanswer : r.answer ctx.registry k k with
  | error e => simp only [Router.afterRequests, hanswer, Router.afterRequest_of_error hanswer]
  | ok route =>
    -- a copy cannot fail, so the rest is reached
    have hcopy : ctx.settings.applyRoute route h = .ok h.copy := by
      rw [Settings.applyRoute, hr.links hanswer]
      rfl
    simp only [run_lift, hcopy, Router.afterRequests, hanswer]
    exact hf h.copy _

/-- An exponential makes its request after the shape is checked. -/
theorem exp_requests (c : ElementClass) (v : Held α) :
    Requests ctx.registry r
      (if v.datum.shape = [3, 1] then .ok [(.tag .rotationVector, c.key)] else .error .wrongShape)
      (ctx.exp c v) := by
  unfold exp
  by_cases h : v.datum.shape = [3, 1]
  · rw [if_pos h, if_neg (not_not_intro h)]
    exact (ctx.convert_requests _ _ _).then_quiet fun _ => .read fun _ => .read fun _ => .pure _
  · rw [if_neg h, if_pos h]
    exact rfl

/-- The requests of a product are those that the second factor needs. -/
theorem mul_requests (a b : Subject α) :
    Requests ctx.registry r (.ok (a.cls.family.factorRequests b.cls.key)) (ctx.mul a b) := by
  unfold mul
  split
  · next h =>
    rw [h]
    exact .of_quiet (.read fun _ => .read fun _ => .pure _)
  · next h =>
    -- quaternions and parameters convert the second factor to their own encoding
    rw [h]
    exact (ctx.convert_requests _ _ _).then_quiet fun _ => .lift _
  · next h =>
    rw [h]
    exact (ctx.convert_requests _ _ _).then_quiet fun _ => .lift _
  · next h =>
    rw [h]
    exact .of_quiet (.read fun _ => .lift _)
  · next h =>
    rw [h]
    exact .of_quiet (.read fun _ => .lift _)

end Context

/-! ## Plans -/

namespace World

variable {α : Type} [Ground α] (w : World α) {r : Router Formula}

/-- The requests of making data, by the argument. -/
theorem makeData_requests (c : ConcreteClass) (x : Option (Argument α)) :
    Requests w.catalog.registry r (w.dataRequests c x) (w.makeData c x) := by
  cases x with
  | none => exact .of_quiet (.pure _)
  | some x =>
    cases x with
    | gap m => exact .of_quiet (.pure _)
    | _ =>
      refine .read fun b => ?_
      cases b with
      | some b => exact w.context.convert_requests _ _ _
      | none => exact .of_quiet (.read fun _ => .lift _)

theorem answer_requests (q : Question α) :
    Requests w.catalog.registry r (w.requests (.ask q)) (w.answer q) := by
  cases q with
  | equal a x => exact .of_quiet (.lift _)
  | unequal a x => exact .of_quiet (.lift _)
  | isClose a b tol => exact .of_quiet (.read fun _ => .read fun _ => .read fun _ => .pure _)
  | isIdentity a tol => exact .of_quiet (.read fun _ => .read fun _ => .pure _)
  | same a b => exact .of_quiet (.read fun _ => .read fun _ => .pure _)
  | text r =>
    refine .of_quiet (.read fun x => ?_)
    cases x <;> exact .read fun _ => .pure _
  | state r => exact .of_quiet (.lift _)
  | eval r symbols => exact .of_quiet (.read fun _ => .read fun _ => .pure _)
  | instantiateTag tag =>
    simp only [answer]
    split
    · split
      · exact .of_quiet (.throw _)
      · exact .of_quiet (.pure _)
    · exact .of_quiet (.throw _)
  | traits tag => exact .of_quiet (.read fun _ => .pure _)
  | isCanonical encoding => exact .of_quiet (.read fun _ => .pure _)
  | elementClass tag => exact .of_quiet (.read fun _ => .pure _)
  | hasLegs tag => exact .of_quiet (.pure _)
  | route source target => exact (w.context.route_requests _ _).then_quiet fun _ => .pure _

/-- **Requests.** Planning a step leaves the router after the requests of the step. -/
theorem requests_of_plan (hr : r.CopiesSelf) (x : Step α) :
    Requests w.catalog.registry r (w.requests x) (w.plan x) := by
  cases x with
  | new dst cls x =>
    exact .read fun _ => .read fun _ => (w.makeData_requests _ _).then_quiet fun _ => .pure _
  | identity dst cls type => exact .of_quiet (.read fun _ => .read fun _ => .pure _)
  | random dst cls x y z t =>
    exact .of_quiet (.read fun _ => .read fun _ => .read fun _ => .read fun _ => .pure _)
  | exp dst cls x =>
    exact .read fun _ => .read fun _ => (w.context.exp_requests _ _).then_quiet fun _ => .pure _
  | log dst a =>
    refine .read fun x => ?_
    cases x with
    | element e =>
      exact .read fun _ => (w.context.convert_requests _ _ _).then_quiet fun _ => .pure _
    | matrix m => exact .of_quiet (.read fun _ => .read fun _ => .pure _)
  | coordinates dst a encoding =>
    exact .read fun _ => (w.context.convert_requests _ _ _).then_quiet fun _ => .pure _
  | getData dst a => exact .of_quiet (.read fun _ => .pure _)
  | mul dst a x =>
    refine .read fun y => ?_
    cases y with
    | element e =>
      -- a copy asks for the route to its own class, and the product for that of the factor
      exact .read fun _ => .read fun _ => w.context.copy_requests hr _ _ fun _ _ =>
        (w.context.mul_requests _ _).then_quiet fun _ => .pure _
    | matrix m => exact .of_quiet (.read fun _ => .pure _)
  | mulInPlace a x =>
    refine .read fun y => ?_
    cases y with
    | element e =>
      exact .read fun _ => .read fun _ => (w.context.mul_requests _ _).then_quiet fun _ => .pure _
    | matrix m => exact .of_quiet (.read fun _ => .pure _)
  | invert a => exact .of_quiet (.read fun _ => .read fun _ => .read fun _ => .pure _)
  | inverse dst a =>
    exact .read fun _ => (w.context.convert_requests _ _ _).then_quiet fun _ =>
      .read fun _ => .pure _
  | canonical dst a =>
    refine .read fun _ => .read fun _ => .read fun b => ?_
    cases b with
    | true => exact .of_quiet (.pure _)
    | false =>
      exact .read fun _ => .read fun _ => .read fun _ =>
        (w.context.convert_requests _ _ _).then_quiet fun _ => .pure _
  | cast dst a type =>
    refine .of_quiet (.read fun _ => ?_)
    cases type with
    | none => exact .throw _
    | some t => exact .read fun _ => .pure _
  | assign dst a b =>
    exact .read fun _ => .read fun _ => .read fun _ =>
      (w.context.convert_requests _ _ _).then_quiet fun _ => .pure _
  | setData a x =>
    exact .of_quiet (.read fun _ => .read fun _ => .read fun _ => .read fun _ => .pure _)
  | setMatrix a x =>
    exact .of_quiet (.read fun _ => .read fun _ => .read fun _ => .read fun _ => .pure _)
  | setIdentity a type => exact .of_quiet (.read fun _ => .read fun _ => .pure _)
  | setRandom a x y z t =>
    exact .of_quiet (.read fun _ => .read fun _ => .read fun _ => .read fun _ => .pure _)
  | poke m p x =>
    refine .of_quiet (.read fun y => ?_)
    cases y with
    | matrix m => exact .read fun _ => .read fun _ => .pure _
    | element e => exact .throw _
  | convert dst x source target =>
    exact .read fun _ => (w.context.convert_requests _ _ _).then_quiet fun _ => .pure _
  | ask q => exact (w.answer_requests q).then_quiet fun _ => .pure _
  | declare d => exact .of_quiet (.read fun _ => .pure _)
  | configure change => exact .of_quiet (.pure _)
  | drainLog => exact rfl
  -- the others look things up and ask for no route
  | _ => exact .of_quiet (.read fun _ => .read fun _ => .pure _)

end World

end Attitude
