import Attitude.Proofs.Elements.Routes
import Attitude.Proofs.Session.Freshness

/-!
# Conversions in a session

A session answers conversions from its tables as long as no traits are registered once a chain is
remembered. This is so in every run that makes its declarations first and registers no traits
afterwards: as long as nothing but declarations was made the router remembers nothing, and what
comes later is a registration of conversions or a request (`reached_run`).

In such a run the two ways to convert agree. `conversion_of_run` is about any two encodings with a
common canonical one, `coordinates_of_run` about the rotation matrix of an element. Neither depends
on what the registered formulas are, so both are stated for arbitrary rules, too.
-/

namespace Attitude

variable {α : Type}

/-- A step that declares something. -/
def Step.Declares : Step α → Prop
  | .declare _ => True
  | _ => False

/-- A step that registers the traits of a tag. -/
def Step.RegistersTraits : Step α → Prop
  | .declare (.traits _ _ _) => True
  | _ => False

namespace Session

/-- Traits are registered by the declarations that come first, and not later. -/
inductive TraitsFirst : List (Step α) → Prop
  | mk (ys zs : List (Step α)) (hys : ∀ y ∈ ys, y.Declares) (hzs : ∀ z ∈ zs, ¬ z.RegistersTraits) :
      TraitsFirst (ys ++ zs)

variable [Ground α] {s : Session α} {x : Step α}

/-! ## Tables and routers of a session -/

/-- A declaration teaches the router nothing. -/
theorem known_step_of_declares (hx : x.Declares) (hs : s.router.known = .empty) :
    (s.step x).2.router.known = .empty := by
  cases x with
  | declare d =>
    cases h : s.world.catalog.declare d with
    | error e =>
      rw [step_declare_of_error h]
      exact hs
    | ok r =>
      rw [step_declare_of_ok h]
      cases r.event with
      | none => exact hs
      | some event => rfl
  | _ => exact hx.elim

/-- A declaration leaves a router that requests could have led to: it clears the cache if it changes
rules. -/
theorem reached_declare {d : Declaration} (hx : ¬ (Step.declare d : Step α).RegistersTraits)
    (hs : s.router.Reached s.world.catalog.registry) :
    (s.step (.declare d)).2.router.Reached (s.step (.declare d)).2.world.catalog.registry := by
  cases h : s.world.catalog.declare d with
  | error e =>
    rw [step_declare_of_error h]
    exact hs
  | ok r =>
    rw [step_declare_of_ok h]
    cases Catalog.accepted_of_declare h with
    | traits => exact absurd trivial hx
    | legs f g => exact .legs _ f g _ hs
    | direct f => exact .direct _ _ f _ hs
    | _ => exact hs

/-- **Steps.** What registers no traits registers conversions or asks for chains, if anything. -/
theorem reached_step (hx : ¬ x.RegistersTraits)
    (hs : s.router.Reached s.world.catalog.registry) :
    (s.step x).2.router.Reached (s.step x).2.world.catalog.registry := by
  obtain hd | ⟨d, rfl⟩ := x.declare_cases
  · obtain ⟨hcatalog, r, hasked, hr⟩ := s.step_of_not_declare hd
    rw [hcatalog]
    cases hr with
    | inl hr => exact hr ▸ hs.asked hasked
    | inr hr => exact hr ▸ (hs.asked hasked).drained
  · exact reached_declare hx hs

/-- **Runs.** The router of a run that registers traits first came about after these. -/
theorem reached_run (settings : Settings α) {xs : List (Step α)} (hxs : TraitsFirst xs) :
    ((⟨{ settings := settings }, {}⟩ : Session α).run xs).2.router.Reached
      ((⟨{ settings := settings }, {}⟩ : Session α).run xs).2.world.catalog.registry := by
  obtain ⟨ys, zs, hys, hzs⟩ := hxs
  have hknown : ((⟨{ settings := settings }, {}⟩ : Session α).run ys).2.router.known = .empty :=
    run_invariant (I := fun s => s.router.known = .empty)
      (fun _ _ => known_step_of_declares) ys _ hys rfl
  -- with nothing in memory the tables may be any, so what was registered before is of no concern
  rw [run_append]
  exact run_invariant (I := fun s => s.router.Reached s.world.catalog.registry)
    (fun _ _ => reached_step) zs _ hzs (.start _ hknown)

/-! ## Conversions -/

/-- **Conversions.** After a run that registers traits first, a conversion between two encodings
with a common canonical one and no direct rule succeeds exactly if the way by their legs does, with
the same content. The same holds of tables of arbitrary rules. -/
theorem conversion_of_run {a b : Tag} :
    (∀ (settings : Settings α) (xs : List (Step α)), TraitsFirst xs →
      let s := ((⟨{ settings := settings }, {}⟩ : Session α).run xs).2
      let ctx := s.world.context
      ctx.registry.Pivots a b → ∀ h,
        ((ctx.convert h (.tag a) (.tag b)).run s.router).1.toOption.map Held.sheet =
          (do
            let c ← ctx.toCanonical h (.tag a)
            ctx.fromCanonical c (.tag b)).toOption.map Held.sheet) ∧
    ∀ (ρ κ : Type) (rule : ρ → κ → Except Fault κ) (reg : Registry ρ) (r : Router ρ),
      r.Reached reg → reg.Pivots a b → ∀ d,
        ((Action.ofFunctions rule).convert reg r d (.tag a) (.tag b)).toOption =
          (do
            let c ← (Action.ofFunctions rule).toCanonical reg d (.tag a)
            (Action.ofFunctions rule).fromCanonical reg c (.tag b)).toOption := by
  constructor
  · intro settings xs hxs s ctx hab h
    have hr : s.router.Coherent ctx.registry := (reached_run settings hxs).coherent
    simp only [Context.convert_eq, Context.toCanonical_eq, Context.fromCanonical_eq]
    exact ctx.settings.action.convert_through hr hab h
  · intro ρ κ rule reg r hr hab d
    -- here the data is what the rules make it, with nothing around it
    have hcontent : (Action.ofFunctions rule).content = id := rfl
    simpa [hcontent] using (Action.ofFunctions rule).convert_through hr.coherent hab d

/-- The chain from quaternions to Euler angles is remembered when Euler angles get their legs again,
and once more when it is asked for. -/
def rememberedRun : List (Step Float) :=
  [.declare (.traits "EulerRep" [3, 1] none),
   .ask (.route "QuaternionRep" "EulerRep"),
   .declare (.legs "EulerRep" .eulerToMatrix .rotationVectorOfMatrix),
   .ask (.route "QuaternionRep" "EulerRep")]

/-- The chain that is remembered is the one by the new legs, and converting by it is converting by
the legs. The same with a rule that counts. -/
theorem conversion_after_rememberedRun :
    (TraitsFirst rememberedRun ∧
      (initial.run rememberedRun).2.world.context.registry.Pivots .quaternion .euler ∧
      (initial.run rememberedRun).2.router.remembered? (.tag .quaternion) (.tag .euler) =
        some ⟨.pivot, [.rule .quaternionToMatrix, .rule .rotationVectorOfMatrix]⟩ ∧
      ∃ x, (((initial.run rememberedRun).2.world.context.convert
          (Family.quaternion.identity .numeric) (.tag .quaternion) (.tag .euler)).run
            (initial.run rememberedRun).2.router).1.toOption.map Held.sheet = some x ∧
        (do
          let c ← (initial.run rememberedRun).2.world.context.toCanonical
            (Family.quaternion.identity .numeric) (.tag .quaternion)
          (initial.run rememberedRun).2.world.context.fromCanonical c
            (.tag .euler)).toOption.map Held.sheet = some x) ∧
    (Router.Reached Catalog.builtinRegistry {} ∧
      Catalog.builtinRegistry.Pivots .quaternion .euler ∧
      ((Action.ofFunctions fun (_ : Formula) n => .ok (n + 1)).convert
        Catalog.builtinRegistry {} 0 (.tag .quaternion) (.tag .euler)).toOption = some 2) := by
  -- the traits come first, so that no route is remembered from before them
  have hxs : TraitsFirst rememberedRun :=
    .mk (rememberedRun.take 1) (rememberedRun.drop 1) (by simp [rememberedRun, Step.Declares])
      (by simp [rememberedRun, Step.RegistersTraits])
  have hpivots : (initial.run rememberedRun).2.world.context.registry.Pivots .quaternion .euler :=
    ⟨by decide, ⟨_, _, rfl, rfl, rfl⟩, rfl⟩
  have hbuiltin : Catalog.builtinRegistry.Pivots .quaternion .euler :=
    ⟨by decide, ⟨_, _, rfl, rfl, rfl⟩, rfl⟩
  have hstart : Router.Reached Catalog.builtinRegistry {} := .start _ rfl
  have hsession := conversion_of_run.1 .initial _ hxs hpivots (Family.quaternion.identity .numeric)
  have hrules := (conversion_of_run (α := Float)).2 _ _ (fun _ n => .ok (n + 1)) _ _ hstart hbuiltin
  exact ⟨⟨hxs, hpivots, rfl, _, rfl, hsession.symm⟩, hstart, hbuiltin, hrules 0⟩

/-! ## Rotation matrices of elements -/

/-- **Rotation matrices.** After a run that registers traits first, the coordinates of an element in
the encoding of matrices are its rotation matrix, or fail as it does. For that the tag of the
element has to be the one of matrices and its own canonical encoding, or a direct rule between them
has to be the leg of the former, or there must be none and both have to name matrices as their
canonical encoding. The same holds of tables of arbitrary rules. -/
theorem coordinates_of_run :
    (∀ (settings : Settings α) (xs : List (Step α)), TraitsFirst xs →
      let s := ((⟨{ settings := settings }, {}⟩ : Session α).run xs).2
      let ctx := s.world.context
      ∀ a : Subject α, (∀ t, a.cls.tag = some t → ctx.registry.LeadsTo t .matrix) →
        ((ctx.coordinates a (.tag .matrix)).run s.router).1 = ctx.rotationMatrix a) ∧
    ∀ (ρ κ : Type) (rule : ρ → κ → Except Fault κ) (reg : Registry ρ) (r : Router ρ) (t : Tag),
      r.Reached reg → reg.LeadsTo t .matrix → ∀ d,
        (Action.ofFunctions rule).convert reg r d (.tag t) (.tag .matrix) =
          (Action.ofFunctions rule).toCanonical reg d (.tag t) := by
  constructor
  · intro settings xs hxs s ctx a ha
    have hr : s.router.Coherent ctx.registry := (reached_run settings hxs).coherent
    show ((ctx.convert a.held a.cls.key (.tag .matrix)).run s.router).1 =
      ctx.toCanonical a.held a.cls.key
    rw [Context.convert_eq, Context.toCanonical_eq, ConcreteClass.key]
    cases ht : a.cls.tag with
    | none =>
      -- without a tag both ways look for traits in vain
      rw [Action.convert, hr]
      rfl
    | some t => exact ctx.settings.action.convert_canonical hr (ha t ht) a.held
  · intro ρ κ rule reg r t hr ht d
    exact (Action.ofFunctions rule).convert_canonical hr.coherent ht d

/-- Euler angles get the legs of rotation vectors, and a direct rule to matrices that is one of
them. -/
def relinkedRun : List (Step Float) :=
  [.declare (.traits "EulerRep" [3, 1] none),
   .declare (.legs "EulerRep" .rotationVectorToMatrix .rotationVectorOfMatrix),
   .declare (.direct "EulerRep" "RotationMatrixRep" .rotationVectorToMatrix),
   .new "a" "Euler" none]

/-- The direct rule is the leg itself, so both ways to the matrix agree. The same with a rule that
counts, without a direct rule. -/
theorem coordinates_after_relinkedRun :
    (TraitsFirst relinkedRun ∧
      (initial.run relinkedRun).2.world.context.registry.LeadsTo .euler .matrix ∧ ∃ a h,
        (initial.run relinkedRun).2.world.store.named "a" = .ok a ∧
        (initial.run relinkedRun).2.world.context.rotationMatrix a = .ok h ∧
        (((initial.run relinkedRun).2.world.context.coordinates a (.tag .matrix)).run
          (initial.run relinkedRun).2.router).1 = .ok h) ∧
    (Router.Reached Catalog.builtinRegistry {} ∧
      Catalog.builtinRegistry.LeadsTo .euler .matrix ∧
      (Action.ofFunctions fun (_ : Formula) n => .ok (n + 1)).convert
        Catalog.builtinRegistry {} 0 (.tag .euler) (.tag .matrix) = .ok 1) := by
  have hxs : TraitsFirst relinkedRun :=
    .mk (relinkedRun.take 3) (relinkedRun.drop 3) (by simp [relinkedRun, Step.Declares])
      (by simp [relinkedRun, Step.RegistersTraits])
  -- the direct rule is the leg that was registered again
  have hleads : (initial.run relinkedRun).2.world.context.registry.LeadsTo .euler .matrix :=
    .direct (by decide) rfl rfl (by decide) rfl rfl
  -- without a direct rule the leg itself is taken
  have hbuiltin : Catalog.builtinRegistry.LeadsTo .euler .matrix :=
    .shared (by decide) rfl rfl rfl rfl rfl
  have hstart : Router.Reached Catalog.builtinRegistry {} := .start _ rfl
  have hnew : ∃ a h, (initial.run relinkedRun).2.world.store.named "a" = .ok a ∧
      a.cls.tag = some .euler ∧
      (initial.run relinkedRun).2.world.context.rotationMatrix a = .ok h := ⟨_, _, rfl, rfl, rfl⟩
  obtain ⟨a, h, ha, htag, hh⟩ := hnew
  have hall : ∀ t, a.cls.tag = some t →
      (initial.run relinkedRun).2.world.context.registry.LeadsTo t .matrix := by
    intro t ht
    obtain rfl : Tag.euler = t := Option.some.inj (htag.symm.trans ht)
    exact hleads
  have hsession := coordinates_of_run.1 .initial _ hxs a hall
  have hrules := (coordinates_of_run (α := Float)).2 _ _ (fun _ n => .ok (n + 1)) _ _ _ hstart
    hbuiltin
  exact ⟨⟨hxs, hleads, a, h, ha, hh, hsession.trans hh⟩, hstart, hbuiltin, hrules 0⟩

/-- Parameters get a direct rule to matrices that is no leg of theirs, and quaternions become their
own canonical encoding. -/
def detachedRun : List (Step Float) :=
  [.declare (.direct "MrpRep" "RotationMatrixRep" .copy),
   .declare (.traits "QuaternionRep" [4, 1] (some "QuaternionRep")),
   .new "a" "Mrp" none,
   .new "b" "Quat" none]

/-- The direct rule goes before the leg, and the leg of a tag need not lead to matrices. -/
theorem coordinates_ne_after_detachedRun :
    (∃ a h k, (initial.run detachedRun).2.world.store.named "a" = .ok a ∧
      (initial.run detachedRun).2.world.context.rotationMatrix a = .ok h ∧
      (((initial.run detachedRun).2.world.context.coordinates a (.tag .matrix)).run
        (initial.run detachedRun).2.router).1 = .ok k ∧
      h.datum.shape = [3, 3] ∧ k.datum.shape = [3, 1]) ∧
    ∃ b h, (initial.run detachedRun).2.world.store.named "b" = .ok b ∧
      (initial.run detachedRun).2.world.context.rotationMatrix b = .ok h ∧
      (((initial.run detachedRun).2.world.context.coordinates b (.tag .matrix)).run
        (initial.run detachedRun).2.router).1 = .error (.notShared .quaternion .matrix) :=
  ⟨⟨_, _, _, rfl, rfl, rfl, rfl, rfl⟩, _, _, rfl, rfl, rfl⟩

end Session

end Attitude
