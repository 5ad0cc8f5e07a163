import Attitude.Proofs.Session.Freshness
import Attitude.Proofs.Session.Requests

/-!
# The log of a session

The log gets a line about a chain when the router learns it, and the router forgets its chains when
conversions are registered. So from one registration of conversions to the next, the lines about a
pair of tags are those of the first chain between them that a step asks for and gets: there is one
line, which that step writes, or there is none (`lines_of_run`).

`chains` are the chains that a step asks for and gets, `lines` what it adds to the log. One step
that does not make the router forget is `router_step`, and `filter_linesOfRun` carries this over to
the steps between two registrations.
-/

namespace Attitude

variable {α : Type}

/-- A step that registers the legs of a tag or a direct rule. -/
def Step.RegistersConversions : Step α → Prop
  | .declare (.legs _ _ _) | .declare (.direct _ _ _) => True
  | _ => False

namespace Session

variable {s : Session α} {x : Step α} {xs : List (Step α)} {src dst : Key} {route : Route Formula}

/-- The chains that a step asks for and gets. -/
def chains (s : Session α) (x : Step α) : List ((Key × Key) × Route Formula) :=
  s.router.found s.world.catalog.registry ((s.world.requests x).toOption.getD [])

/-- No chain is got where the request fails. -/
theorem lookup_chains_of_error {e : Fault}
    (h : s.router.answer s.world.catalog.registry src dst = .error e) :
    (s.chains x).lookup (src, dst) = none := by
  cases hroute : (s.chains x).lookup (src, dst) with
  | none => rfl
  | some route =>
    rw [Router.answer_of_found hroute] at h
    cases h

variable [Ground α]

/-- The step registers conversions and is accepted. -/
def Restarts (s : Session α) (x : Step α) : Prop :=
  x.RegistersConversions ∧ ∃ answer, (s.step x).1 = .ok answer

/-- No step of the run registers conversions and is accepted. -/
def Steady (s : Session α) : List (Step α) → Prop
  | [] => True
  | x :: xs => ¬ s.Restarts x ∧ (s.step x).2.Steady xs

/-- The chains that the steps of a run ask for and get. -/
def chainsOfRun (s : Session α) : List (Step α) → List ((Key × Key) × Route Formula)
  | [] => []
  | x :: xs => s.chains x ++ (s.step x).2.chainsOfRun xs

/-- What a step adds to the log. -/
def lines (s : Session α) (x : Step α) : List Event :=
  (s.step x).2.router.log.drop s.router.log.length

/-- What the steps of a run add to the log, also if the log is emptied in between. -/
def linesOfRun (s : Session α) : List (Step α) → List Event
  | [] => []
  | x :: xs => s.lines x ++ (s.step x).2.linesOfRun xs

/-! ## Steps -/

/-- An accepted declaration starts the log anew if it clears the cache. -/
theorem restarts_declare_iff {d : Declaration} {r : Declared}
    (h : s.world.catalog.declare d = .ok r) :
    s.Restarts (.declare d) ↔ r.event.isSome := by
  rw [Restarts, answer_declare_iff, and_iff_left ⟨r, h⟩]
  cases Catalog.accepted_of_declare h <;> simp [Step.RegistersConversions]

/-- Once the cache is cleared no chain is known. -/
theorem known_step_of_restarts (hx : s.Restarts x) : (s.step x).2.router.known = .empty := by
  cases x with
  | declare d =>
    obtain ⟨r, h⟩ := answer_declare_iff.1 hx.2
    obtain ⟨event, hevent⟩ := Option.isSome_iff_exists.1 ((restarts_declare_iff h).1 hx)
    rw [step_declare_of_ok h, hevent]
    rfl
  | _ => exact hx.1.elim

/-- That a tag has a copy for a route to itself is kept by requests and by cleared caches. -/
theorem copiesSelf_step (hs : s.router.CopiesSelf) : (s.step x).2.router.CopiesSelf :=
  forall_remembered_step (fun _ _ _ _ hroute heq => by
    subst heq
    exact Registry.links_of_resolve_self hroute) x hs

/-- **Steps.** Unless a step registers conversions, it leaves the router after its requests, or with
an empty log besides. -/
theorem router_step (hs : s.router.CopiesSelf) (hx : ¬ s.Restarts x) :
    let r := s.router.afterRequests s.world.catalog.registry
      ((s.world.requests x).toOption.getD [])
    (s.step x).2.router = r ∨ x = .drainLog ∧ (s.step x).2.router = r.drained := by
  have hr := s.world.requests_of_plan hs x
  obtain ⟨-, hp⟩ := s.world.plan_ensures x s.router
  unfold Asking.Requests at hr
  intro r
  obtain ⟨e, r', hplan, hstep⟩ | ⟨p, r', hplan, hstep⟩ := s.step_cases x
  · rw [hplan] at hr
    rw [hstep]
    exact .inl hr
  · rw [hplan] at hr hp
    obtain rfl : r' = r := hr
    rw [hstep]
    cases x with
    | configure change =>
      cases hplan
      exact .inl rfl
    | drainLog =>
      cases hplan
      exact .inr ⟨rfl, rfl⟩
    | declare d =>
      obtain ⟨r'', h⟩ := answer_declare_iff.1 ⟨p.answer, congrArg Prod.fst hstep⟩
      obtain ⟨answer, hplan'⟩ := plan_declare_of_ok h
      rw [hplan'] at hplan
      cases hplan
      -- with an event the step would have restarted
      have hevent : r''.event = none :=
        Option.not_isSome_iff_eq_none.1 fun hevent => hx ((restarts_declare_iff h).2 hevent)
      rw [hevent]
      exact .inl rfl
    | _ => exact .inl ((hp p rfl trivial).router_eq _)

/-- What is remembered after a step, from the requests that the step makes. -/
theorem remembered?_step (hs : s.router.CopiesSelf) (hx : ¬ s.Restarts x) (src dst : Key) :
    (s.step x).2.router.remembered? src dst =
      (s.router.afterRequests s.world.catalog.registry
        ((s.world.requests x).toOption.getD [])).remembered? src dst := by
  obtain h | ⟨-, h⟩ := router_step hs hx
  · rw [h]
  · rw [h, Router.remembered?_drained]

/-- A chain is known after a step if it was known before, or if the step asked for it and found it.
-/
theorem knows_step (hs : s.router.CopiesSelf) (hx : ¬ s.Restarts x) (p : Key × Key) :
    (s.step x).2.router.knows p = (s.router.knows p || ((s.chains x).lookup p).isSome) := by
  unfold chains
  rw [← Router.knows_afterRequests, Router.knows, remembered?_step hs hx]
  rfl

/-- A remembered chain stays. -/
theorem remembered?_step_of_remembered (hs : s.router.CopiesSelf) (hx : ¬ s.Restarts x)
    (h : s.router.remembered? src dst = some route) :
    (s.step x).2.router.remembered? src dst = some route := by
  rw [remembered?_step hs hx]
  exact (Router.asked_afterRequests _ _ _).keeps h

/-- The log grows by the lines of the step. -/
theorem log_step (hs : s.router.CopiesSelf) (hx : ¬ s.Restarts x) (hdrain : x ≠ .drainLog) :
    (s.step x).2.router.log = s.router.log ++ s.lines x := by
  obtain h | ⟨rfl, -⟩ := router_step hs hx
  · obtain ⟨new, hlog, -⟩ := Router.log_afterRequests s.world.catalog.registry
      ((s.world.requests x).toOption.getD []) s.router
    rw [lines, h, hlog, List.drop_left]
  · exact absurd rfl hdrain

/-- The lines of a step are those of the chains that it gets. -/
theorem filter_lines (hs : s.router.CopiesSelf) (hx : ¬ s.Restarts x) (a b : Tag) :
    (s.lines x).filter (Event.about a b) =
      Router.newLines a b (s.router.knows (.tag a, .tag b)) (s.chains x) := by
  obtain h | ⟨rfl, h⟩ := router_step hs hx
  · obtain ⟨new, hlog, hfilter⟩ := Router.log_afterRequests s.world.catalog.registry
      ((s.world.requests x).toOption.getD []) s.router
    rw [lines, h, hlog, List.drop_left, hfilter]
    rfl
  · have hlines : s.lines .drainLog = [] := by
      rw [lines, h]
      exact List.drop_nil
    rw [hlines]
    exact (ite_self _).symm

/-! ## Runs -/

/-- The lines of a run that are about one pair: the line of the first request that finds a chain, if
the chain was not known. -/
theorem filter_linesOfRun (hs : s.router.CopiesSelf) (hxs : s.Steady xs) (a b : Tag) :
    (s.linesOfRun xs).filter (Event.about a b) =
      Router.newLines a b (s.router.knows (.tag a, .tag b)) (s.chainsOfRun xs) := by
  induction xs generalizing s with
  | nil => exact (ite_self _).symm
  | cons x xs ih =>
    obtain ⟨hx, hxs⟩ := hxs
    -- what the first step gets is known to the rest
    rw [linesOfRun, chainsOfRun, List.filter_append, filter_lines hs hx,
      ih (copiesSelf_step hs) hxs, knows_step hs hx, Router.newLines_append]

/-- **Run.** A chain is known after a run if it was known before, or if a step asked for it and
found it. -/
theorem knows_run (hs : s.router.CopiesSelf) (hxs : s.Steady xs) (p : Key × Key) :
    (s.run xs).2.router.knows p = (s.router.knows p || ((s.chainsOfRun xs).lookup p).isSome) := by
  induction xs generalizing s with
  | nil => exact (Bool.or_false _).symm
  | cons x xs ih =>
    obtain ⟨hx, hxs⟩ := hxs
    have hrun : (s.run (x :: xs)).2 = ((s.step x).2.run xs).2 := rfl
    rw [hrun, ih (copiesSelf_step hs) hxs, knows_step hs hx, chainsOfRun, List.lookup_append,
      Option.isSome_or, Bool.or_assoc]

/-- A chain that is remembered stays the same until the cache is cleared. -/
theorem remembered?_run (hs : s.router.CopiesSelf) (hxs : s.Steady xs)
    (h : s.router.remembered? src dst = some route) :
    (s.run xs).2.router.remembered? src dst = some route := by
  induction xs generalizing s with
  | nil => exact h
  | cons x xs ih =>
    exact ih (copiesSelf_step hs) hxs.2 (remembered?_step_of_remembered hs hxs.1 h)

/-- A run does not clear the cache if neither of its parts does. -/
theorem steady_append {ys : List (Step α)} :
    s.Steady (xs ++ ys) ↔ s.Steady xs ∧ (s.run xs).2.Steady ys := by
  induction xs generalizing s with
  | nil => exact (and_iff_right trivial).symm
  | cons x xs ih =>
    show ¬ s.Restarts x ∧ (s.step x).2.Steady (xs ++ ys) ↔ _
    rw [ih, ← and_assoc]
    rfl

/-- What a step gets, every conversion from then on goes along. -/
theorem convert_run_of_chains (hs : s.router.CopiesSelf) (hx : ¬ s.Restarts x)
    (hxs : (s.step x).2.Steady xs) (hroute : (s.chains x).lookup (src, dst) = some route)
    (h : Held α) :
    let u := (s.run (x :: xs)).2
    (u.world.context.convert h src dst).run u.router =
      (u.world.settings.applyRoute route h, u.router) := by
  intro u
  have hstep : (s.step x).2.router.remembered? src dst = some route :=
    (remembered?_step hs hx _ _).trans (Router.remembered?_of_found hroute)
  have hrun : ((s.step x).2.run xs).2.router.remembered? src dst = some route :=
    remembered?_run (copiesSelf_step hs) hxs hstep
  exact u.world.context.run_convert_of_remembered hrun h

/-! ## Between two registrations -/

/-- After every run a tag has a copy for a route to itself. -/
theorem copiesSelf_run (settings : Settings α) (xs : List (Step α)) :
    ((⟨{ settings := settings }, {}⟩ : Session α).run xs).2.router.CopiesSelf :=
  run_invariant (P := fun _ => True) (I := fun s => s.router.CopiesSelf)
    (fun _ _ _ => copiesSelf_step) xs _ (fun _ _ => trivial) (Router.copiesSelf_of_empty rfl)

/-- A run whose last step registers conversions leaves a router that remembers nothing. -/
theorem known_run_of_restarts {settings : Settings α} {xs : List (Step α)}
    (hxs : xs = [] ∨ ∃ ys y, xs = ys ++ [y] ∧
      ((⟨{ settings := settings }, {}⟩ : Session α).run ys).2.Restarts y) :
    ((⟨{ settings := settings }, {}⟩ : Session α).run xs).2.router.known = .empty := by
  obtain rfl | ⟨ys, y, rfl, hy⟩ := hxs
  · rfl
  · rw [run_append]
    exact known_step_of_restarts hy

/-- **Lines.** From one registration of conversions to the next, or from the start or to the end,
the log gets at most one line about a pair of tags. The first step that asks for a chain between
them and gets it writes that line; it tells the kind and the length of the chain, and every
conversion from then on goes along that chain. A step that asks later, that does not get a chain, or
that does not ask writes no such line. -/
theorem lines_of_run (settings : Settings α) (us xs : List (Step α)) :
    let start : Session α := ⟨{ settings := settings }, {}⟩
    (us = [] ∨ ∃ vs x, us = vs ++ [x] ∧ (start.run vs).2.Restarts x) →
    let s := (start.run us).2
    s.Steady xs → ∀ a b : Tag,
      ((s.linesOfRun xs).filter (Event.about a b)).length ≤ 1 ∧
      ∀ vs x ws, xs = vs ++ x :: ws →
        let t := (s.run vs).2
        (x ≠ .drainLog → (t.step x).2.router.log = t.router.log ++ t.lines x) ∧
        ((s.chainsOfRun vs).lookup (.tag a, .tag b) = none →
          ∀ route, (t.chains x).lookup (.tag a, .tag b) = some route →
            t.world.catalog.registry.resolve (.tag a) (.tag b) = .ok route ∧
            (t.lines x).filter (Event.about a b) =
              [.routed a b route.kind route.links.length] ∧
            ∀ ws₁ ws₂, ws = ws₁ ++ ws₂ →
              let u := (t.run (x :: ws₁)).2
              ∀ h, (u.world.context.convert h (.tag a) (.tag b)).run u.router =
                (u.world.settings.applyRoute route h, u.router)) ∧
        ((s.chainsOfRun vs).lookup (.tag a, .tag b) ≠ none ∨
            (t.chains x).lookup (.tag a, .tag b) = none →
          (t.lines x).filter (Event.about a b) = []) ∧
        ∀ e, t.router.answer t.world.catalog.registry (.tag a) (.tag b) = .error e →
          (t.lines x).filter (Event.about a b) = [] := by
  intro start hus s hxs a b
  have hs : s.router.CopiesSelf := copiesSelf_run settings us
  -- the last registration has emptied the cache
  have hforgot : s.router.knows (.tag a, .tag b) = false := by
    rw [Router.knows, Router.remembered?_of_empty (known_run_of_restarts hus)]
    rfl
  constructor
  · rw [filter_linesOfRun hs hxs, Router.newLines]
    split
    · exact Nat.zero_le 1
    · exact Option.length_toList_le
  · rintro vs x ws rfl t
    obtain ⟨hvs, hx, hws⟩ := steady_append.1 hxs
    have ht : t.router.CopiesSelf := by
      have hrun := copiesSelf_run settings (us ++ vs)
      rw [run_append] at hrun
      exact hrun
    -- a pair is known when an earlier step has found its chain
    have hknows : t.router.knows (.tag a, .tag b) =
        ((s.chainsOfRun vs).lookup (.tag a, .tag b)).isSome := by
      rw [knows_run hs hvs, hforgot, Bool.false_or]
    rw [filter_lines ht hx, hknows, Router.newLines]
    refine ⟨log_step ht hx, fun hfirst route hroute => ⟨?_, ?_, ?_⟩, ?_, fun e he => ?_⟩
    · -- nothing is remembered for the pair, so the chain is that of the tables
      have hnone : ¬ t.router.knows (.tag a, .tag b) := by simp [hknows, hfirst]
      rw [← Router.answer_of_not_remembered (Router.remembered?_of_not_knows hnone),
        Router.answer_of_found hroute]
    · rw [hfirst, hroute]
      rfl
    · rintro ws₁ ws₂ rfl
      exact convert_run_of_chains ht hx (steady_append.1 hws).1 hroute
    · rintro (hearlier | hnone)
      · rw [if_pos (Option.isSome_iff_ne_none.2 hearlier)]
      · rw [hnone]
        exact ite_self _
    · rw [lookup_chains_of_error he]
      exact ite_self _

/-- Quaternions were converted to Euler angles before Euler angles get their legs again. -/
def renewedRun : List (Step Float) :=
  [.new "q" "Quat" none, .coordinates "m" "q" "EulerRep",
   .declare (.legs "EulerRep" .eulerToMatrix .rotationVectorOfMatrix)]

/-- The chain is asked for by a construction and an assignment, after a request and a registration
that fail. -/
def askingRun : List (Step Float) :=
  [.ask (.route "QuaternionRep" "NoRep"), .declare (.legs "NoRep" .copy .copy),
   .new "e" "Euler" (some (.register "q")), .assign "f" "e" "q"]

/-- The construction writes the line, the assignment writes none, and after both the chain is that
of the line. -/
theorem lines_of_askingRun :
    let s := (initial.run renewedRun).2
    (renewedRun = renewedRun.take 2 ++ [renewedRun[2]] ∧
      (initial.run (renewedRun.take 2)).2.Restarts renewedRun[2]) ∧
    s.Steady askingRun ∧
    ((s.linesOfRun askingRun).filter (Event.about .quaternion .euler)).length ≤ 1 ∧
    ((s.run (askingRun.take 2)).2.lines askingRun[2]).filter (Event.about .quaternion .euler) =
      [.routed .quaternion .euler .pivot 2] ∧
    ((s.run (askingRun.take 3)).2.lines askingRun[3]).filter (Event.about .quaternion .euler) = [] ∧
    ∀ h, ((s.run askingRun).2.world.context.convert h (.tag .quaternion) (.tag .euler)).run
        (s.run askingRun).2.router =
      ((s.run askingRun).2.world.settings.applyRoute
        ⟨.pivot, [.rule .quaternionToMatrix, .rule .rotationVectorOfMatrix]⟩ h,
        (s.run askingRun).2.router) := by
  intro s
  have hrestarts : (initial.run (renewedRun.take 2)).2.Restarts renewedRun[2] :=
    ⟨trivial, .nothing, rfl⟩
  have hfails : ((s.run (askingRun.take 1)).2.step askingRun[1]).1 =
    .error (.noTraits (.text "NoRep")) := rfl
  -- the step that fails registers nothing, so it does not restart the log
  have hfailed : ¬ (s.run (askingRun.take 1)).2.Restarts askingRun[1] := by
    rintro ⟨-, answer, hok⟩
    cases hfails.symm.trans hok
  have hsteady : s.Steady askingRun :=
    ⟨fun h => h.1, hfailed, fun h => h.1, fun h => h.1, trivial⟩
  obtain ⟨hcount, hsplit⟩ := lines_of_run (.initial : Settings Float) renewedRun askingRun
    (.inr ⟨renewedRun.take 2, renewedRun[2], rfl, hrestarts⟩) hsteady .quaternion .euler
  obtain ⟨-, hfirst, -, -⟩ := hsplit (askingRun.take 2) askingRun[2] (askingRun.drop 3) rfl
  obtain ⟨-, -, hlater, -⟩ := hsplit (askingRun.take 3) askingRun[3] [] rfl
  obtain ⟨-, hline, hconvert⟩ := hfirst rfl _ rfl
  refine ⟨⟨rfl, hrestarts⟩, hsteady, hcount, hline, hlater (.inl nofun), fun h => ?_⟩
  exact hconvert (askingRun.drop 3) [] rfl h

end Session

end Attitude
