import Attitude.Proofs.Session.Asking
import Attitude.Proofs.Session.Declarations
import Attitude.Proofs.Session.Runs
import Mathlib.Data.List.Induction

/-!
# Whether remembered chains are up to date

The answer to a request is *fresh* if it is what the current tables resolve to. A registration of
conversions makes the router forget everything, and then every answer is fresh. A registration of
traits does not, although a resolution reads the traits of both tags. So a remembered chain goes
stale when it leads through a canonical encoding and one of its tags is given another one.

`fresh_step_iff` says that this is the only way to lose freshness in a step, and that it is lost
then. `fresh_throughout_iff` carries this over to runs.
-/

namespace Attitude

/-- A step is a declaration or it is not. -/
theorem Step.declare_cases {α : Type} (x : Step α) :
    (∀ d, x ≠ .declare d) ∨ ∃ d, x = .declare d := by
  by_cases hx : ∃ d, x = .declare d
  · exact .inr hx
  · exact .inl (not_exists.1 hx)

namespace Session

variable {α : Type}

/-- The answer to a request for a pair is what the current tables resolve to. -/
def Fresh (s : Session α) (src dst : Key) : Prop :=
  s.router.answer s.world.catalog.registry src dst = s.world.catalog.registry.resolve src dst

/-- The step registers the traits of a tag again and gives it another canonical tag, while the
router remembers a chain of the pair that leads through the old one. -/
def Outdates (s : Session α) (x : Step α) (src dst : Key) : Prop :=
  ∃ d r t new route, x = .declare d ∧ s.world.catalog.declare d = .ok r ∧
    r.registered = some (t, new) ∧ s.world.catalog.registry.Recanonizes t new ∧
    s.router.remembered? src dst = some route ∧ route.kind = .pivot ∧
    (src = .tag t ∨ dst = .tag t)

/-- A cache that agrees with the tables answers from them. -/
theorem fresh_of_coherent {s : Session α} (h : s.router.Coherent s.world.catalog.registry)
    (src dst : Key) : s.Fresh src dst :=
  h src dst

/-- Requests to the tables of a session leave its answers fresh or stale as they were. -/
theorem fresh_asked_iff {s : Session α} {w : World α} {r : Router Formula} {src dst : Key}
    (h : Router.Asked s.world.catalog.registry s.router r)
    (hw : w.catalog.registry = s.world.catalog.registry) :
    (⟨w, r⟩ : Session α).Fresh src dst ↔ s.Fresh src dst := by
  simp only [Fresh, hw, h.answer_eq]

/-! ## Registrations of traits -/

/-- What an accepted declaration outdates depends on the traits that it registers. -/
theorem outdates_declare_iff {s : Session α} {d : Declaration} {r : Declared} {src dst : Key}
    (h : s.world.catalog.declare d = .ok r) :
    s.Outdates (.declare d) src dst ↔ ∃ t new route, r.registered = some (t, new) ∧
      s.world.catalog.registry.Recanonizes t new ∧ s.router.remembered? src dst = some route ∧
      route.kind = .pivot ∧ (src = .tag t ∨ dst = .tag t) := by
  constructor
  · rintro ⟨d', r', t, new, route, heq, hok, hrest⟩
    cases heq
    rw [h] at hok
    cases hok
    exact ⟨t, new, route, hrest⟩
  · rintro ⟨t, new, route, hrest⟩
    exact ⟨d, r, t, new, route, rfl, h, hrest⟩

/-- A declaration that is refused changes no tables. -/
theorem not_outdates_of_error {s : Session α} {d : Declaration} {e : Fault} {src dst : Key}
    (h : s.world.catalog.declare d = .error e) : ¬ s.Outdates (.declare d) src dst := by
  rintro ⟨d', r, t, new, route, heq, hok, -⟩
  cases heq
  rw [h] at hok
  cases hok

/-- What registers no traits outdates nothing, as it clears the cache if it changes rules. -/
theorem not_outdates_of_unregistered {s : Session α} {d : Declaration} {r : Declared}
    {src dst : Key} (h : s.world.catalog.declare d = .ok r) (hr : r.registered = none) :
    ¬ s.Outdates (.declare d) src dst := by
  rw [outdates_declare_iff h]
  rintro ⟨t, new, route, hsome, -⟩
  rw [hr] at hsome
  cases hsome

/-- The registration of traits leaves an answer fresh, unless a chain is remembered that the tables
have no more. -/
theorem fresh_setTraits_iff {s : Session α} {w : World α} {t : Tag} {new : Traits} {src dst : Key}
    (hs : s.Fresh src dst)
    (hw : w.catalog.registry = s.world.catalog.registry.setTraits t new) :
    (⟨w, s.router⟩ : Session α).Fresh src dst ↔
      ∀ route, s.router.remembered? src dst = some route →
        ¬ (route.kind = .pivot ∧ (src = .tag t ∨ dst = .tag t) ∧
          s.world.catalog.registry.Recanonizes t new) := by
  have hbefore : ∀ route, s.router.remembered? src dst = some route →
      s.world.catalog.registry.resolve src dst = .ok route := Router.answer_eq_resolve_iff.1 hs
  -- the router forgets nothing, so what it remembers must be what the new tables say
  have hafter : (⟨w, s.router⟩ : Session α).Fresh src dst ↔
      ∀ route, s.router.remembered? src dst = some route →
        (s.world.catalog.registry.setTraits t new).resolve src dst = .ok route := by
    rw [← hw]
    exact Router.answer_eq_resolve_iff
  rw [hafter]
  exact forall₂_congr fun route hrem => Registry.resolve_setTraits t new (hbefore route hrem)

variable [Ground α]

/-! ## Steps

A step other than a declaration keeps the tables and at most asks the router. -/

/-- A step that declares nothing keeps the catalog. It asks its tables, and may empty the log. -/
theorem step_of_not_declare (s : Session α) {x : Step α} (hx : ∀ d, x ≠ .declare d) :
    (s.step x).2.world.catalog = s.world.catalog ∧
      ∃ r, Router.Asked s.world.catalog.registry s.router r ∧
        ((s.step x).2.router = r ∨ (s.step x).2.router = r.drained) := by
  obtain ⟨h, hp⟩ := s.world.plan_ensures x s.router
  obtain ⟨e, r, hplan, hs⟩ | ⟨p, r, hplan, hs⟩ := s.step_cases x
  · rw [hplan] at h
    rw [hs]
    exact ⟨rfl, r, h, .inl rfl⟩
  · rw [hplan] at h hp
    rw [hs]
    -- what is put into objects leaves the tables alone
    by_cases ho : x.OnObjects
    · have hc := hp p rfl ho
      exact ⟨hc.catalog_eq s.world, r, h, .inl (hc.router_eq r)⟩
    · -- of the other steps only a declaration extends them
      cases x with
      | configure change =>
        cases hplan
        exact ⟨rfl, _, .refl, .inl rfl⟩
      | drainLog =>
        cases hplan
        exact ⟨rfl, _, .refl, .inr rfl⟩
      | declare d => exact absurd rfl (hx d)
      | _ => exact absurd trivial ho

/-- A step that declares nothing leaves every answer fresh or stale as it was. -/
theorem fresh_step_of_not_declare (s : Session α) {x : Step α} (hx : ∀ d, x ≠ .declare d)
    (src dst : Key) : (s.step x).2.Fresh src dst ↔ s.Fresh src dst := by
  obtain ⟨hcatalog, r, h, hr⟩ := s.step_of_not_declare hx
  simp only [Fresh, hcatalog]
  cases hr with
  | inl hr => rw [hr, h.answer_eq]
  | inr hr => rw [hr, Router.answer_drained, h.answer_eq]

/-- An accepted declaration plans the tables it leads to. -/
theorem plan_declare_of_ok {s : Session α} {d : Declaration} {r : Declared}
    (h : s.world.catalog.declare d = .ok r) :
    ∃ a, (s.world.plan (.declare d)).run s.router =
      (.ok ⟨.extend r.catalog r.event, a⟩, s.router) := by
  simp only [World.plan, Asking.run_bind, Asking.run_lift, h]
  exact ⟨_, rfl⟩

theorem plan_declare_of_error {s : Session α} {d : Declaration} {e : Fault}
    (h : s.world.catalog.declare d = .error e) :
    (s.world.plan (.declare d)).run s.router = (.error e, s.router) := by
  simp only [World.plan, Asking.run_bind, Asking.run_lift, h]

/-- An accepted declaration extends the catalog, and with an event the router forgets its chains. -/
theorem step_declare_of_ok {s : Session α} {d : Declaration} {r : Declared}
    (h : s.world.catalog.declare d = .ok r) :
    (s.step (.declare d)).2 =
      ⟨{ s.world with catalog := r.catalog },
        s.router.apply (.extend r.catalog r.event : Change α)⟩ := by
  obtain ⟨a, hplan⟩ := plan_declare_of_ok h
  rw [step_of_ok hplan]
  rfl

/-- A refused declaration changes nothing at all. -/
theorem step_declare_of_error {s : Session α} {d : Declaration} {e : Fault}
    (h : s.world.catalog.declare d = .error e) : (s.step (.declare d)).2 = s := by
  rw [step_of_error (plan_declare_of_error h)]

/-- What every chain of tables has, the remembered chains go on to have. -/
theorem forall_remembered_step {P : Key → Key → Route Formula → Prop}
    (hP : ∀ (reg : Registry Formula) src dst route, reg.resolve src dst = .ok route →
      P src dst route) {s : Session α} (x : Step α)
    (hs : ∀ src dst route, s.router.remembered? src dst = some route → P src dst route) :
    ∀ src dst route, (s.step x).2.router.remembered? src dst = some route → P src dst route := by
  obtain hx | ⟨d, rfl⟩ := x.declare_cases
  · obtain ⟨-, r, hasked, hr⟩ := s.step_of_not_declare hx
    have hall := hasked.forall_remembered (hP _) hs
    cases hr with
    | inl hr => exact hr ▸ hall
    | inr hr =>
      intro src dst route h
      rw [hr, Router.remembered?_drained] at h
      exact hall src dst route h
  · cases h : s.world.catalog.declare d with
    | error e =>
      rw [step_declare_of_error h]
      exact hs
    | ok r =>
      rw [step_declare_of_ok h]
      cases r.event with
      | none => exact hs
      | some event =>
        -- with an event everything is forgotten
        intro src dst route hroute
        have hnone : (s.router.forget event).remembered? src dst = none :=
          Router.remembered?_of_empty rfl src dst
        cases hnone.symm.trans hroute

/-- The step of a declaration answers if the declaration is accepted. -/
theorem answer_declare_iff {s : Session α} {d : Declaration} :
    (∃ answer, (s.step (.declare d)).1 = .ok answer) ↔
      ∃ r, s.world.catalog.declare d = .ok r := by
  cases h : s.world.catalog.declare d with
  | error e =>
    rw [step_of_error (plan_declare_of_error h)]
    exact iff_of_false (fun ⟨_, hok⟩ => by cases hok) (fun ⟨_, hok⟩ => by cases hok)
  | ok r =>
    obtain ⟨a, hplan⟩ := plan_declare_of_ok h
    rw [step_of_ok hplan]
    exact iff_of_true ⟨_, rfl⟩ ⟨r, rfl⟩

/-- An accepted declaration leaves an answer fresh, unless it outdates it. -/
theorem fresh_declare_iff {s : Session α} {d : Declaration} {r : Declared} {src dst : Key}
    (hs : s.Fresh src dst) (h : s.world.catalog.declare d = .ok r) :
    (s.step (.declare d)).2.Fresh src dst ↔ ¬ s.Outdates (.declare d) src dst := by
  rw [step_declare_of_ok h]
  obtain ⟨hreg, hev, hnone⟩ | ⟨t, new, hreg, hev, hsome⟩ | ⟨⟨event, hev⟩, hnone⟩ :=
    (Catalog.accepted_of_declare h).registry_cases
  · -- the tables of conversions stay, and so does the router
    rw [hev]
    exact iff_of_true ((fresh_asked_iff .refl hreg).2 hs) (not_outdates_of_unregistered h hnone)
  · -- traits are registered and nothing is forgotten
    rw [hev]
    refine (fresh_setTraits_iff hs hreg).trans ?_
    rw [outdates_declare_iff h]
    constructor
    · rintro hkeep ⟨t', new', route, hr, hcan, hrem, hkind, hend⟩
      rw [hsome] at hr
      cases hr
      exact hkeep route hrem ⟨hkind, hend, hcan⟩
    · rintro hkeep route hrem ⟨hkind, hend, hcan⟩
      exact hkeep ⟨t, new, route, hsome, hcan, hrem, hkind, hend⟩
  · -- conversions are registered and everything is forgotten
    rw [hev]
    exact iff_of_true (fresh_of_coherent (Router.coherent_of_empty rfl) src dst)
      (not_outdates_of_unregistered h hnone)

/-- **One step.** A fresh answer goes stale exactly if the step gives a tag of the pair another
canonical tag while a chain through the old one is remembered. -/
theorem fresh_step_iff {s : Session α} {src dst : Key} (hs : s.Fresh src dst) (x : Step α) :
    (s.step x).2.Fresh src dst ↔ ¬ s.Outdates x src dst := by
  obtain hx | ⟨d, rfl⟩ := x.declare_cases
  · have hno : ¬ s.Outdates x src dst := fun ⟨d, _, _, _, _, hd, _⟩ => hx d hd
    exact iff_of_true ((fresh_step_of_not_declare s hx src dst).2 hs) hno
  · cases h : s.world.catalog.declare d with
    | error e =>
      rw [step_declare_of_error h]
      exact iff_of_true hs (not_outdates_of_error h)
    | ok r => exact fresh_declare_iff hs h

/-! ## Runs -/

/-- **When answers are fresh.** In every state of a run the answer for a pair is fresh, exactly if
no step of the run gives a tag of the pair another canonical tag while a chain of the pair through
the old one is remembered. -/
theorem fresh_throughout_iff (settings : Settings α) (xs : List (Step α)) (src dst : Key) :
    (∀ ys zs, xs = ys ++ zs →
        ((⟨{ settings := settings }, {}⟩ : Session α).run ys).2.Fresh src dst) ↔
      ∀ ys x zs, xs = ys ++ x :: zs →
        ¬ ((⟨{ settings := settings }, {}⟩ : Session α).run ys).2.Outdates x src dst := by
  generalize hs : (⟨{ settings := settings }, {}⟩ : Session α) = s
  have hfresh : s.Fresh src dst := by
    subst hs
    exact fresh_of_coherent (Router.coherent_of_empty rfl) src dst
  constructor
  · rintro h ys x zs rfl
    have hnow := h ys (x :: zs) rfl
    have hnext := h (ys ++ [x]) zs (by simp)
    rw [run_append] at hnext
    exact (fresh_step_iff hnow x).1 hnext
  · intro h ys
    -- induction from the end of the part that was run: its last step is the one to look at
    induction ys using List.reverseRecOn with
    | nil => exact fun _ _ => hfresh
    | append_singleton ys x ih =>
      intro zs hxs
      rw [List.append_assoc] at hxs
      rw [run_append]
      exact (fresh_step_iff (ih ([x] ++ zs) hxs) x).2 (h ys x zs hxs)

/-! ## A stale answer

The traits of quaternions are registered again after the chain from quaternions to Euler angles was
asked for. -/

/-- Asks for the chain, then makes quaternions their own canonical encoding. -/
def staleRun : List (Step Float) :=
  [.ask (.route "QuaternionRep" "EulerRep"),
   .declare (.traits "QuaternionRep" [4, 1] (some "QuaternionRep"))]

/-- The remembered chain is still answered, although the tables have none any more. -/
theorem stale_after_staleRun :
    ((initial.run staleRun).2.router.answer (initial.run staleRun).2.world.catalog.registry
        (.tag .quaternion) (.tag .euler) =
      .ok ⟨.pivot, [.rule .quaternionToMatrix, .rule .eulerOfMatrix]⟩) ∧
    ((initial.run staleRun).2.world.catalog.registry.resolve (.tag .quaternion) (.tag .euler) =
      .error (.notShared .quaternion .euler)) ∧
    ¬ (initial.run staleRun).2.Fresh (.tag .quaternion) (.tag .euler) := by
  refine ⟨rfl, rfl, ?_⟩
  intro h
  cases h

end Session

end Attitude
