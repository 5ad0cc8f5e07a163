import Attitude.Proofs.Registry.Resolution
import Attitude.Router

/-!
# What requests leave behind

A request may teach the router one chain and add one line to its log. `Asked reg r r'` says that
`r'` is the router `r` after some requests to one registry, whatever they were.

Three facts about it carry everything else. A remembered chain stays (`Asked.keeps`). Every request
gets the answer that it would have got before (`Asked.answer_eq`). The log only grows, and only by
lines about chains (`Asked.log_eq`).

`Coherent` is the invariant of a router whose answers are those of its registry. Requests preserve
it, because they put nothing into memory but chains that were just resolved.
-/

namespace Attitude

namespace Router

variable {ρ : Type} {reg : Registry ρ} {r r' r'' : Router ρ} {src dst a b : Key} {route : Route ρ}

/-- The answer to a request: what is remembered, or what the registry resolves. -/
def answer (reg : Registry ρ) (src dst : Key) (r : Router ρ) : Except Fault (Route ρ) :=
  (r.request reg src dst).1

/-- The router after a request. -/
def afterRequest (reg : Registry ρ) (src dst : Key) (r : Router ρ) : Router ρ :=
  (r.request reg src dst).2

/-! ## One request

The pair is remembered, or the registry finds a chain, or it does not. Only the second case changes
the router. -/

theorem answer_of_remembered (h : r.remembered? src dst = some route) :
    r.answer reg src dst = .ok route := by
  simp only [answer, request, h]

theorem answer_of_not_remembered (h : r.remembered? src dst = none) :
    r.answer reg src dst = reg.resolve src dst := by
  simp only [answer, request, h]
  cases reg.resolve src dst <;> rfl

/-- Whether a remembered chain is what the registry resolves decides whether the answer is. -/
theorem answer_eq_resolve_iff :
    r.answer reg src dst = reg.resolve src dst ↔
      ∀ route, r.remembered? src dst = some route → reg.resolve src dst = .ok route := by
  cases h : r.remembered? src dst with
  | none => exact iff_of_true (answer_of_not_remembered h) nofun
  | some route =>
    rw [answer_of_remembered h]
    exact ⟨fun e _ hr => by cases hr; exact e.symm, fun hr => (hr route rfl).symm⟩

/-- A request leaves the router alone, or it learns a chain between two tags that was not known and
was found. -/
theorem afterRequest_cases (reg : Registry ρ) (src dst : Key) (r : Router ρ) :
    r.afterRequest reg src dst = r ∨
      ∃ a b route, src = .tag a ∧ dst = .tag b ∧ r.known.get? (a, b) = none ∧
        reg.resolve src dst = .ok route ∧ r.afterRequest reg src dst = r.learn src dst route := by
  cases h : r.remembered? src dst with
  | some route => exact .inl (by simp only [afterRequest, request, h])
  | none =>
    cases hr : reg.resolve src dst with
    | error e => exact .inl (by simp only [afterRequest, request, h, hr])
    | ok route =>
      have hlearn : r.afterRequest reg src dst = r.learn src dst route := by
        simp only [afterRequest, request, h, hr]
      obtain ⟨a, b, rfl, rfl⟩ := Registry.tags_of_resolve_ok hr
      exact .inr ⟨a, b, route, rfl, rfl, h, rfl, hlearn⟩

/-- Learning a chain adds the pair and leaves all other pairs alone. -/
theorem remembered?_learn (s t : Tag) (route : Route ρ) (a b : Key) :
    (r.learn (.tag s) (.tag t) route).remembered? a b =
      if a = .tag s ∧ b = .tag t then some route else r.remembered? a b := by
  cases a <;> cases b <;>
    simp [remembered?, learn, Table.get?_insert, Prod.ext_iff]

/-- A remembered chain stays. -/
theorem remembered?_afterRequest (h : r.remembered? a b = some route) (src dst : Key) :
    (r.afterRequest reg src dst).remembered? a b = some route := by
  obtain e | ⟨s, t, route', rfl, rfl, hnone, -, e⟩ := afterRequest_cases reg src dst r
  · rw [e, h]
  · rw [e, remembered?_learn, if_neg, h]
    -- the pair of the request was not remembered, so it is another one
    rintro ⟨rfl, rfl⟩
    rw [remembered?, hnone] at h
    cases h

/-- No request changes the answer to another. -/
theorem answer_afterRequest (reg : Registry ρ) (src dst a b : Key) (r : Router ρ) :
    (r.afterRequest reg src dst).answer reg a b = r.answer reg a b := by
  cases h : r.remembered? a b with
  | some route =>
    rw [answer_of_remembered h, answer_of_remembered (remembered?_afterRequest h src dst)]
  | none =>
    -- the pair is not remembered, so a request may have learned what it resolves to
    rw [answer_of_not_remembered h]
    obtain e | ⟨s, t, route, rfl, rfl, -, hr, e⟩ := afterRequest_cases reg src dst r
    · rw [e, answer_of_not_remembered h]
    · rw [answer_eq_resolve_iff, e]
      intro route' h'
      rw [remembered?_learn] at h'
      split at h'
      · next hab =>
        cases h'
        rw [hab.1, hab.2, hr]
      · rw [h] at h'
        cases h'

theorem remembered?_of_empty (h : r.known = .empty) (src dst : Key) :
    r.remembered? src dst = none := by
  cases src <;> cases dst <;> simp [remembered?, h]

/-- An empty log makes no difference to what is remembered. -/
theorem remembered?_drained (r : Router ρ) (src dst : Key) :
    r.drained.remembered? src dst = r.remembered? src dst := by
  cases src <;> cases dst <;> rfl

/-- An empty log makes no difference to an answer. -/
theorem answer_drained (reg : Registry ρ) (r : Router ρ) (src dst : Key) :
    r.drained.answer reg src dst = r.answer reg src dst := by
  cases h : r.remembered? src dst with
  | some route =>
    rw [answer_of_remembered h, answer_of_remembered ((remembered?_drained r src dst).trans h)]
  | none =>
    rw [answer_of_not_remembered h,
      answer_of_not_remembered ((remembered?_drained r src dst).trans h)]

/-! ## Many requests -/

/-- `r'` is `r` after some requests to `reg`. -/
inductive Asked (reg : Registry ρ) (r : Router ρ) : Router ρ → Prop where
  | refl : Asked reg r r
  | request {r' : Router ρ} (src dst : Key) (h : Asked reg r r') :
      Asked reg r (r'.afterRequest reg src dst)

namespace Asked

theorem one (reg : Registry ρ) (src dst : Key) (r : Router ρ) :
    Asked reg r (r.afterRequest reg src dst) :=
  .request src dst .refl

theorem trans (h : Asked reg r r') (h' : Asked reg r' r'') : Asked reg r r'' := by
  induction h' with
  | refl => exact h
  | request src dst _ ih => exact .request src dst ih

/-- A remembered chain stays. -/
theorem keeps (h : Asked reg r r') (hr : r.remembered? a b = some route) :
    r'.remembered? a b = some route := by
  induction h with
  | refl => exact hr
  | request src dst _ ih => exact remembered?_afterRequest ih src dst

/-- Every request gets the answer that it would have got before. -/
theorem answer_eq (h : Asked reg r r') (a b : Key) : r'.answer reg a b = r.answer reg a b := by
  induction h with
  | refl => rfl
  | request src dst _ ih => rw [answer_afterRequest, ih]

/-- The log grows by lines about chains, and each of these is remembered. -/
theorem log_eq (h : Asked reg r r') :
    ∃ events, r'.log = r.log ++ events ∧ ∀ x ∈ events, ∃ a b route,
      x = .routed a b route.kind route.links.length ∧ r'.known.get? (a, b) = some route := by
  -- on the requests; a line stays true as remembered chains stay
  induction h with
  | refl => exact ⟨[], by simp, nofun⟩
  | @request r' src dst _ ih =>
    obtain ⟨events, hlog, hevents⟩ := ih
    have hold : ∀ x ∈ events, ∃ a b route, x = .routed a b route.kind route.links.length ∧
        (r'.afterRequest reg src dst).known.get? (a, b) = some route := by
      intro x hx
      obtain ⟨a, b, route, rfl, hk⟩ := hevents x hx
      have hk' : r'.remembered? (.tag a) (.tag b) = some route := hk
      exact ⟨a, b, route, rfl, remembered?_afterRequest hk' src dst⟩
    obtain e | ⟨a, b, route, rfl, rfl, -, -, e⟩ := afterRequest_cases reg src dst r'
    · exact ⟨events, by rw [e, hlog], hold⟩
    · refine ⟨events ++ [.routed a b route.kind route.links.length], ?_, ?_⟩
      · rw [e, learn, hlog, List.append_assoc]
      · intro x hx
        cases List.mem_append.1 hx with
        | inl hx => exact hold x hx
        | inr hx =>
          refine ⟨a, b, route, List.mem_singleton.1 hx, ?_⟩
          rw [e]
          exact Table.get?_insert_self ..

/-- What every chain of the registry has, the remembered chains go on to have. -/
theorem forall_remembered {P : Key → Key → Route ρ → Prop}
    (hP : ∀ src dst route, reg.resolve src dst = .ok route → P src dst route) (h : Asked reg r r')
    (hr : ∀ src dst route, r.remembered? src dst = some route → P src dst route) :
    ∀ src dst route, r'.remembered? src dst = some route → P src dst route := by
  -- on the requests; only resolved chains are learned
  induction h with
  | refl => exact hr
  | @request r' src dst _ ih =>
    obtain e | ⟨a, b, route, rfl, rfl, -, hresolve, e⟩ := afterRequest_cases reg src dst r'
    · rw [e]
      exact ih
    · rw [e]
      intro src dst route' h'
      rw [remembered?_learn] at h'
      split at h'
      · next hpair =>
        cases h'
        rw [hpair.1, hpair.2]
        exact hP _ _ _ hresolve
      · exact ih src dst route' h'

end Asked

/-! ## Coherence -/

/-- Every answer is the one of the registry. -/
def Coherent (reg : Registry ρ) (r : Router ρ) : Prop :=
  ∀ src dst, r.answer reg src dst = reg.resolve src dst

/-- A router that remembers nothing answers from its registry alone. -/
theorem coherent_of_empty (h : r.known = .empty) : r.Coherent reg :=
  fun src dst => answer_of_not_remembered (remembered?_of_empty h src dst)

/-- Requests keep the cache in agreement with the tables: what is learned was resolved by them. -/
theorem Asked.coherent (h : Asked reg r r') (hr : r.Coherent reg) : r'.Coherent reg :=
  fun src dst => (h.answer_eq src dst).trans (hr src dst)

end Router

end Attitude
