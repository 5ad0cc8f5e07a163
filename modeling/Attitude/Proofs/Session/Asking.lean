import Attitude.Proofs.Router.Requests
import Attitude.Session.Run

/-!
# What a plan does to the router

Planning a step only reads the world, but it may ask the router for chains. `Asking.Ensures reg P m`
says of a computation `m` that, from every router, it leaves a router that was asked some requests
to `reg`, and that whatever it answers satisfies `P`. The rules for `Ensures` follow the shape of a
computation, so the statements about single operations below only retrace their definitions.

The main statement is `World.plan_ensures`: planning asks the registry of the world, and unless the
step is a declaration, a setting or a look at the log, what it plans is a change of objects.
-/

namespace Attitude

/-! ## Computations that ask -/

namespace Asking

variable {β γ : Type}

/-- What reads the world only leaves the router alone. -/
theorem run_lift (x : Except Fault β) (r : Router Formula) :
    (liftM x : Asking β).run r = (x, r) := rfl

/-- What comes second asks the router that the first has left behind, and is not reached after a
fault. -/
theorem run_bind (m : Asking β) (f : β → Asking γ) (r : Router Formula) :
    (m >>= f).run r = match m.run r with
      | (.ok b, r') => (f b).run r'
      | (.error e, r') => (.error e, r') := by
  show (ExceptT.bindCont f (m r).1) (m r).2 = _
  rcases h : m.run r with ⟨_ | b, r'⟩
  · have h' : m r = _ := h
    rw [h']; rfl
  · have h' : m r = _ := h
    rw [h']; rfl

/-- What is done in two parts and answers has an answer of its first part. -/
theorem exists_of_run_bind_eq_ok {m : Asking β} {f : β → Asking γ} {r r' : Router Formula} {c : γ}
    (h : (m >>= f).run r = (.ok c, r')) :
    ∃ b r'', m.run r = (.ok b, r'') ∧ (f b).run r'' = (.ok c, r') := by
  rw [run_bind] at h
  rcases hm : m.run r with ⟨e | b, r''⟩
  · rw [hm] at h
    cases h
  · rw [hm] at h
    exact ⟨b, r'', rfl, h⟩

/-- A reading that answers has answered what it read. -/
theorem eq_ok_of_run_lift {x : Except Fault β} {r r' : Router Formula} {b : β}
    (h : (liftM x : Asking β).run r = (.ok b, r')) : x = .ok b ∧ r = r' := by
  rw [run_lift] at h
  exact Prod.ext_iff.1 h

/-- If something is read first, it has answered before the rest could. -/
theorem exists_of_run_read_eq_ok {x : Except Fault β} {f : β → Asking γ} {r r' : Router Formula}
    {c : γ} (h : (liftM x >>= f).run r = (.ok c, r')) :
    ∃ b, x = .ok b ∧ (f b).run r = (.ok c, r') := by
  obtain ⟨b, r'', hread, hf⟩ := exists_of_run_bind_eq_ok h
  obtain ⟨hx, rfl⟩ := eq_ok_of_run_lift hread
  exact ⟨b, hx, hf⟩

/-- What was looked up is passed on. -/
theorem run_of_run_read_eq_ok {x : Except Fault β} {f : β → Asking γ} {r r' : Router Formula}
    {b : β} {c : γ} (hx : x = .ok b) (h : (liftM x >>= f).run r = (.ok c, r')) :
    (f b).run r = (.ok c, r') := by
  obtain ⟨b', hb', hf⟩ := exists_of_run_read_eq_ok h
  obtain rfl : b = b' := Except.ok.inj (hx.symm.trans hb')
  exact hf

/-- From every router, `m` leaves a router that was asked some requests to `reg`, and answers
nothing but what satisfies `P`. -/
def Ensures (reg : Registry Formula) (P : β → Prop) (m : Asking β) : Prop :=
  ∀ r, Router.Asked reg r (m.run r).2 ∧ ∀ b, (m.run r).1 = .ok b → P b

/-- A computation that asks `reg` and answers anything. -/
abbrev Asks (reg : Registry Formula) (m : Asking β) : Prop := Ensures reg (fun _ => True) m

variable {reg : Registry Formula} {P : γ → Prop} {Q : β → Prop}

theorem Ensures.pure {b : γ} (h : P b) : Ensures reg P (pure b) :=
  fun _ => ⟨.refl, fun _ e => by cases e; exact h⟩

/-- A reading whose answers have the property. -/
theorem Ensures.lift {x : Except Fault γ} (h : ∀ b, x = .ok b → P b) : Ensures reg P (liftM x) :=
  fun _ => ⟨.refl, h⟩

theorem Ensures.throw (e : Fault) : Ensures reg P (throw e : Asking γ) :=
  fun _ => ⟨.refl, nofun⟩

/-- The second may use what the first one ensures. -/
theorem Ensures.bind_of {m : Asking β} {f : β → Asking γ} (hm : Ensures reg Q m)
    (hf : ∀ b, Q b → Ensures reg P (f b)) : Ensures reg P (m >>= f) := by
  intro r
  obtain ⟨hr, hb⟩ := hm r
  rw [run_bind]
  rcases h : m.run r with ⟨e | b, r'⟩
  · rw [h] at hr
    exact ⟨hr, nofun⟩
  · rw [h] at hr hb
    obtain ⟨hr', hc⟩ := hf b (hb b rfl) r'
    exact ⟨hr.trans hr', hc⟩

/-- The second may need nothing of the first, save that it asks by the same tables. -/
theorem Ensures.bind {m : Asking β} {f : β → Asking γ} (hm : Asks reg m)
    (hf : ∀ b, Ensures reg P (f b)) : Ensures reg P (m >>= f) :=
  hm.bind_of fun b _ => hf b

/-- The rule for a part that asks nothing, which is most parts of a plan. -/
theorem Ensures.read {x : Except Fault β} {f : β → Asking γ} (hf : ∀ b, Ensures reg P (f b)) :
    Ensures reg P (liftM x >>= f) :=
  .bind (.lift fun _ _ => trivial) hf

/-- The rule for a part whose answer matters for what follows. -/
theorem Ensures.look {x : Except Fault β} {f : β → Asking γ}
    (hf : ∀ b, x = .ok b → Ensures reg P (f b)) : Ensures reg P (liftM x >>= f) :=
  .bind_of (.lift fun _ h => h) hf

end Asking

open Asking

/-! ## Conversions and operations of elements -/

namespace Context

variable {α : Type}

theorem route_asks (ctx : Context α) (src dst : Key) : Asks ctx.registry (ctx.route src dst) :=
  fun r => ⟨.one ctx.registry src dst r, fun _ _ => trivial⟩

variable [Ground α] (ctx : Context α)

theorem convert_asks (h : Held α) (src dst : Key) : Asks ctx.registry (ctx.convert h src dst) :=
  .bind (ctx.route_asks src dst) fun _ => .lift fun _ _ => trivial

/-- An exponential asks for one route at most. -/
theorem exp_asks (c : ElementClass) (v : Held α) : Asks ctx.registry (ctx.exp c v) := by
  unfold exp
  split
  · exact .throw _
  · exact .bind (ctx.convert_asks _ _ _) fun _ => .read fun _ => .read fun _ => .pure trivial

/-- A product asks for one route at most. -/
theorem mul_asks (a b : Subject α) : Asks ctx.registry (ctx.mul a b) := by
  unfold mul
  split
  · exact .read fun _ => .read fun _ => .pure trivial
  · exact .bind (ctx.convert_asks _ _ _) fun _ => .lift fun _ _ => trivial
  · exact .bind (ctx.convert_asks _ _ _) fun _ => .lift fun _ _ => trivial
  · exact .read fun _ => .lift fun _ _ => trivial
  · exact .read fun _ => .lift fun _ _ => trivial

end Context

/-! ## Plans -/

/-- A change of objects and registers: the settings, the catalog and the router stay. -/
def Change.OnObjects {α : Type} : Change α → Prop
  | .configure _ | .extend _ _ | .drainLog => False
  | _ => True

/-- A change of objects leaves the router alone. -/
theorem Change.OnObjects.router_eq {α : Type} {c : Change α} (h : c.OnObjects)
    (r : Router Formula) : r.apply c = r := by
  cases c <;> first | rfl | exact h.elim

/-- A change of objects leaves the tables alone. -/
theorem Change.OnObjects.catalog_eq {α : Type} [Ground α] {c : Change α} (h : c.OnObjects)
    (w : World α) : (w.apply c).catalog = w.catalog := by
  cases c <;> first | rfl | exact h.elim

/-- A step that makes, changes or looks at objects. -/
def Step.OnObjects {α : Type} : Step α → Prop
  | .declare _ | .configure _ | .drainLog => False
  | _ => True

namespace World

variable {α : Type} [Ground α] (w : World α)

theorem makeData_asks (c : ConcreteClass) (x : Option (Argument α)) :
    Asks w.catalog.registry (w.makeData c x) := by
  unfold makeData
  split
  · exact .pure trivial
  · exact .pure trivial
  · refine .read fun b => ?_
    cases b with
    | some b => exact w.context.convert_asks _ _ _
    | none => exact .read fun _ => .lift fun _ _ => trivial

theorem answer_asks (q : Question α) : Asks w.catalog.registry (w.answer q) := by
  cases q with
  | equal a x => exact .lift fun _ _ => trivial
  | unequal a x => exact .lift fun _ _ => trivial
  | isClose a b tol => exact .read fun _ => .read fun _ => .read fun _ => .pure trivial
  | isIdentity a tol => exact .read fun _ => .read fun _ => .pure trivial
  | same a b => exact .read fun _ => .read fun _ => .pure trivial
  | text r =>
    refine .read fun x => ?_
    cases x <;> exact .read fun _ => .pure trivial
  | state r => exact .lift fun _ _ => trivial
  | eval r symbols => exact .read fun _ => .read fun _ => .pure trivial
  | instantiateTag tag =>
    simp only [answer]
    split
    · split
      · exact .throw _
      · exact .pure trivial
    · exact .throw _
  | traits tag => exact .read fun _ => .pure trivial
  | isCanonical encoding => exact .read fun _ => .pure trivial
  | elementClass tag => exact .read fun _ => .pure trivial
  | hasLegs tag => exact .pure trivial
  | route source target => exact .bind (w.context.route_asks _ _) fun _ => .pure trivial

/-- **What planning does.** It asks the registry of the world, and a step on objects plans a change
of objects. -/
theorem plan_ensures (x : Step α) :
    Ensures w.catalog.registry (fun p => x.OnObjects → p.change.OnObjects) (w.plan x) := by
  cases x with
  | new dst cls x =>
    exact .read fun _ => .read fun _ => .bind (w.makeData_asks _ _) fun _ => .pure id
  | identity dst cls type => exact .read fun _ => .read fun _ => .pure id
  | random dst cls x y z t =>
    exact .read fun _ => .read fun _ => .read fun _ => .read fun _ => .pure id
  -- an exponential asks for the route from its vector
  | exp dst cls x =>
    exact .read fun _ => .read fun _ => .bind (w.context.exp_asks _ _) fun _ => .pure id
  | log dst a =>
    refine .read fun x => ?_
    cases x with
    | element e => exact .read fun _ => .bind (w.context.convert_asks _ _ _) fun _ => .pure id
    | matrix m => exact .read fun _ => .read fun _ => .pure id
  | rotationMatrix dst a => exact .read fun _ => .read fun _ => .pure id
  | angle dst a => exact .read fun _ => .read fun _ => .pure id
  | shadow dst a => exact .read fun _ => .read fun _ => .pure id
  | coordinates dst a encoding =>
    exact .read fun _ => .bind (w.context.convert_asks _ _ _) fun _ => .pure id
  | getData dst a => exact .read fun _ => .pure id
  | mul dst a x =>
    refine .read fun y => ?_
    cases y with
    | element e =>
      exact .read fun _ => .read fun _ => .bind (w.context.convert_asks _ _ _) fun _ =>
        .bind (w.context.mul_asks _ _) fun _ => .pure id
    | matrix m => exact .read fun _ => .pure id
  | mulInPlace a x =>
    refine .read fun y => ?_
    cases y with
    | element e =>
      exact .read fun _ => .read fun _ => .bind (w.context.mul_asks _ _) fun _ => .pure id
    | matrix m => exact .read fun _ => .pure id
  | invert a => exact .read fun _ => .read fun _ => .read fun _ => .pure id
  | inverse dst a =>
    exact .read fun _ => .bind (w.context.convert_asks _ _ _) fun _ => .read fun _ => .pure id
  | canonical dst a =>
    refine .read fun _ => .read fun _ => .read fun b => ?_
    cases b with
    | true => exact .pure id
    | false =>
      exact .read fun _ => .read fun _ => .read fun _ =>
        .bind (w.context.convert_asks _ _ _) fun _ => .pure id
  | cast dst a type =>
    refine .read fun _ => ?_
    cases type with
    | none => exact .throw _
    | some t => exact .read fun _ => .pure id
  | assign dst a b =>
    exact .read fun _ => .read fun _ => .read fun _ =>
      .bind (w.context.convert_asks _ _ _) fun _ => .pure id
  | setData a x => exact .read fun _ => .read fun _ => .read fun _ => .read fun _ => .pure id
  | setMatrix a x => exact .read fun _ => .read fun _ => .read fun _ => .read fun _ => .pure id
  | setIdentity a type => exact .read fun _ => .read fun _ => .pure id
  | setRandom a x y z t =>
    exact .read fun _ => .read fun _ => .read fun _ => .read fun _ => .pure id
  | poke m p x =>
    refine .read fun y => ?_
    cases y with
    | matrix m => exact .read fun _ => .read fun _ => .pure id
    | element e => exact .throw _
  | hat dst x => exact .read fun _ => .read fun _ => .pure id
  | vee dst x => exact .read fun _ => .read fun _ => .pure id
  | convert dst x source target =>
    exact .read fun _ => .bind (w.context.convert_asks _ _ _) fun _ => .pure id
  | toCanonical dst x tag => exact .read fun _ => .read fun _ => .pure id
  | fromCanonical dst x tag => exact .read fun _ => .read fun _ => .pure id
  | ask q => exact .bind (w.answer_asks q) fun _ => .pure id
  -- the steps on the tables and the settings are not on objects
  | declare d => exact .read fun _ => .pure False.elim
  | configure change => exact .pure False.elim
  | drainLog => exact fun r => ⟨.refl, fun _ _ => False.elim⟩

/-- Planning asks by the tables, and changes a router in no other way. -/
theorem plan_asks (x : Step α) : Asks w.catalog.registry (w.plan x) :=
  fun r => ⟨(w.plan_ensures x r).1, fun _ _ => trivial⟩

end World

end Attitude
