import Attitude.Proofs.Router.Requests

/-!
# The lines of requests

Requests are made one after the other, and the first one that fails ends them
(`Router.afterRequests`). The chains that the others are answered with are `found`. What they leave
behind is known pair by pair. A pair is remembered afterwards if it was before or is found
(`knows_afterRequests`). The log gets one line about it if it is found and was not remembered
before, and none otherwise (`log_afterRequests`). That line tells the kind and the length of the
chain, which is remembered from then on (`remembered?_of_found`).
-/

namespace Attitude

/-- The line tells of a chain from `a` to `b`. -/
def Event.about (a b : Tag) : Event → Bool
  | .routed c d _ _ => c = a && d = b
  | _ => false

/-- The line that tells of a chain. -/
def Route.line {ρ : Type} (a b : Tag) (route : Route ρ) : Event :=
  .routed a b route.kind route.links.length

/-- The line of a route is about the pair that it was asked for. -/
theorem Route.about_line {ρ : Type} (a b c d : Tag) (route : Route ρ) :
    (route.line c d).about a b = (c = a && d = b) := rfl

namespace Router

variable {ρ : Type} {reg : Registry ρ} {r : Router ρ} {src dst : Key} {p : Key × Key}
  {ps : List (Key × Key)} {a b : Tag} {route : Route ρ}

/-- A chain is remembered for the pair. -/
def knows (r : Router ρ) (p : Key × Key) : Bool := (r.remembered? p.1 p.2).isSome

/-- The router after requests one after the other, up to the first one that fails. -/
def afterRequests (reg : Registry ρ) : List (Key × Key) → Router ρ → Router ρ
  | [], r => r
  | (src, dst) :: ps, r =>
    match r.answer reg src dst with
    | .ok _ => afterRequests reg ps (r.afterRequest reg src dst)
    | .error _ => r

/-- The pairs that the requests find chains for, up to the first one that fails. -/
def found (reg : Registry ρ) : List (Key × Key) → Router ρ → List ((Key × Key) × Route ρ)
  | [], _ => []
  | (src, dst) :: ps, r =>
    match r.answer reg src dst with
    | .ok route => ((src, dst), route) :: found reg ps (r.afterRequest reg src dst)
    | .error _ => []

/-- The lines about a pair of tags: one line about the chain that is found first, unless the pair
was known. -/
def newLines (a b : Tag) (known : Bool) (found : List ((Key × Key) × Route ρ)) : List Event :=
  if known then [] else ((found.lookup (.tag a, .tag b)).map (Route.line a b)).toList

/-! ## One request -/

/-- A known chain is answered from the cache. -/
theorem answer_of_knows (reg : Registry ρ) (h : r.knows (src, dst)) :
    ∃ route, r.remembered? src dst = some route ∧ r.answer reg src dst = .ok route := by
  obtain ⟨route, hroute⟩ := Option.isSome_iff_exists.1 h
  exact ⟨route, hroute, answer_of_remembered hroute⟩

/-- What is not known is not remembered. -/
theorem remembered?_of_not_knows (h : ¬ r.knows (src, dst)) : r.remembered? src dst = none :=
  Option.not_isSome_iff_eq_none.1 h

/-- A chain is found for tags only. -/
theorem tags_of_answer (h : r.answer reg src dst = .ok route) :
    ∃ a b, src = .tag a ∧ dst = .tag b := by
  cases hknown : r.remembered? src dst with
  | none =>
    rw [answer_of_not_remembered hknown] at h
    exact Registry.tags_of_resolve_ok h
  | some route =>
    cases src <;> cases dst <;> first | exact ⟨_, _, rfl, rfl⟩ | cases hknown

/-- A request that fails leaves no trace. -/
theorem afterRequest_of_error {e : Fault} (h : r.answer reg src dst = .error e) :
    r.afterRequest reg src dst = r := by
  obtain hsame | ⟨a, b, route, rfl, rfl, hnone, hroute, -⟩ := afterRequest_cases reg src dst r
  · exact hsame
  · have hnone : r.remembered? (.tag a) (.tag b) = none := hnone
    rw [answer_of_not_remembered hnone, hroute] at h
    cases h

/-- Nor does a request for a chain that is remembered. -/
theorem afterRequest_of_knows (h : r.knows (src, dst)) : r.afterRequest reg src dst = r := by
  obtain ⟨route, hroute, -⟩ := answer_of_knows reg h
  simp only [afterRequest, request, hroute]

/-- A chain that is found and was not remembered is learned. -/
theorem afterRequest_of_not_knows (h : ¬ r.knows (src, dst))
    (hroute : r.answer reg src dst = .ok route) :
    r.afterRequest reg src dst = r.learn src dst route := by
  have hnone := remembered?_of_not_knows h
  rw [answer_of_not_remembered hnone] at hroute
  simp only [afterRequest, request, hnone, hroute]

theorem knows_learn (a b : Tag) (route : Route ρ) (p : Key × Key) :
    (r.learn (.tag a) (.tag b) route).knows p = (r.knows p || p == (.tag a, .tag b)) := by
  have hpair : p = (.tag a, .tag b) ↔ p.1 = .tag a ∧ p.2 = .tag b := Prod.ext_iff
  unfold knows
  rw [remembered?_learn]
  split
  · next h => simp [hpair.2 h]
  · next h => simp [mt hpair.1 h]

/-- Known chains after a request that finds one. It is known already if it was. -/
theorem knows_afterRequest (h : r.answer reg src dst = .ok route) (p : Key × Key) :
    (r.afterRequest reg src dst).knows p = (r.knows p || p == (src, dst)) := by
  by_cases hknows : r.knows (src, dst)
  · rw [afterRequest_of_knows hknows]
    by_cases hp : p = (src, dst)
    · rw [hp, hknows, Bool.true_or]
    · simp [hp]
  · obtain ⟨a, b, rfl, rfl⟩ := tags_of_answer h
    rw [afterRequest_of_not_knows hknows h, knows_learn]

/-- One request adds a line if it is for the pair, and if the chain was not known. -/
theorem newLines_singleton (a b : Tag) (known : Bool) (p : Key × Key) (route : Route ρ) :
    newLines a b known [(p, route)] =
      if known = false ∧ (.tag a, .tag b) = p then [route.line a b] else [] := by
  unfold newLines
  rw [List.lookup_cons]
  cases known with
  | true => rfl
  | false =>
    by_cases hp : (Key.tag a, Key.tag b) = p
    · simp [hp]
    · simp [hp, beq_eq_false_iff_ne.2 hp]

/-- The log after a request that finds a chain: one line more, if the chain was not known. -/
theorem log_afterRequest (h : r.answer reg src dst = .ok route) :
    ∃ lines, (r.afterRequest reg src dst).log = r.log ++ lines ∧ ∀ a b,
      lines.filter (Event.about a b) =
        newLines a b (r.knows (.tag a, .tag b)) [((src, dst), route)] := by
  by_cases hknows : r.knows (src, dst)
  · -- a remembered chain is answered without a line
    refine ⟨[], ?_, fun a b => ?_⟩
    · rw [afterRequest_of_knows hknows, List.append_nil]
    · rw [newLines_singleton, if_neg]
      · rfl
      · rintro ⟨hnot, heq⟩
        rw [heq, hknows] at hnot
        cases hnot
  · -- a chain that is found is between two tags, and writes a line about them
    obtain ⟨c, d, rfl, rfl⟩ := tags_of_answer h
    refine ⟨[route.line c d], ?_, fun a b => ?_⟩
    · rw [afterRequest_of_not_knows hknows h]
      rfl
    · rw [newLines_singleton]
      by_cases hp : c = a ∧ d = b
      · obtain ⟨rfl, rfl⟩ := hp
        simp [hknows, Route.about_line]
      · have hne : (Key.tag a, Key.tag b) ≠ (.tag c, .tag d) := by
          rintro heq
          cases heq
          exact hp ⟨rfl, rfl⟩
        simp [hne, hp, Route.about_line]

/-! ## Requests in a row -/

/-- What is found first counts, and what is found later adds nothing to it. -/
theorem newLines_append (a b : Tag) (known : Bool) (xs ys : List ((Key × Key) × Route ρ)) :
    newLines a b known (xs ++ ys) = newLines a b known xs ++
      newLines a b (known || (xs.lookup (.tag a, .tag b)).isSome) ys := by
  unfold newLines
  rw [List.lookup_append]
  cases known with
  | true => rfl
  | false => cases xs.lookup (.tag a, .tag b) <;> simp

/-- A list of requests is a row of requests. -/
theorem asked_afterRequests (reg : Registry ρ) (ps : List (Key × Key)) (r : Router ρ) :
    Asked reg r (afterRequests reg ps r) := by
  induction ps generalizing r with
  | nil => exact .refl
  | cons p ps ih =>
    unfold afterRequests
    split
    · exact (Asked.one reg _ _ r).trans (ih _)
    · exact .refl

/-- **Memory.** What is remembered was so before, or it is found. -/
theorem knows_afterRequests (reg : Registry ρ) (ps : List (Key × Key)) (r : Router ρ)
    (p : Key × Key) :
    (afterRequests reg ps r).knows p = (r.knows p || ((found reg ps r).lookup p).isSome) := by
  induction ps generalizing r with
  | nil => exact (Bool.or_false _).symm
  | cons q ps ih =>
    obtain ⟨src, dst⟩ := q
    -- a request that fails ends both lists
    cases h : r.answer reg src dst with
    | error e => simp [afterRequests, found, h]
    | ok route =>
      simp only [afterRequests, found, h]
      rw [ih, knows_afterRequest h, Bool.or_assoc, List.lookup_cons]
      cases p == (src, dst) <;> simp

/-- **Lines.** The log grows by one line about every pair that is found and was not known, and by no
line about any other pair. -/
theorem log_afterRequests (reg : Registry ρ) (ps : List (Key × Key)) (r : Router ρ) :
    ∃ lines, (afterRequests reg ps r).log = r.log ++ lines ∧ ∀ a b,
      lines.filter (Event.about a b) =
        newLines a b (r.knows (.tag a, .tag b)) (found reg ps r) := by
  -- on the requests that are left; the first that fails ends them
  induction ps generalizing r with
  | nil => exact ⟨[], (List.append_nil _).symm, fun a b => (ite_self _).symm⟩
  | cons q ps ih =>
    obtain ⟨src, dst⟩ := q
    cases h : r.answer reg src dst with
    | error e => exact ⟨[], by simp [afterRequests, h], by simp [found, h, newLines]⟩
    | ok route =>
      obtain ⟨first, hfirst, hfilter⟩ := log_afterRequest h
      obtain ⟨rest, hrest, hfilter'⟩ := ih (r.afterRequest reg src dst)
      refine ⟨first ++ rest, ?_, fun a b => ?_⟩
      · simp only [afterRequests, h]
        rw [hrest, hfirst, List.append_assoc]
      · have hfound : found reg ((src, dst) :: ps) r =
            [((src, dst), route)] ++ found reg ps (r.afterRequest reg src dst) := by
          simp only [found, h, List.singleton_append]
        -- what the first one has found is known to the others
        rw [hfound, newLines_append, List.filter_append, hfilter, hfilter', knows_afterRequest h,
          List.lookup_cons]
        cases (Key.tag a, Key.tag b) == (src, dst) <;> rfl

/-- What is found is the answer to the request. -/
theorem answer_of_found (h : (found reg ps r).lookup p = some route) :
    r.answer reg p.1 p.2 = .ok route := by
  induction ps generalizing r with
  | nil => cases h
  | cons q ps ih =>
    obtain ⟨src, dst⟩ := q
    cases hanswer : r.answer reg src dst with
    | error e =>
      simp only [found, hanswer] at h
      cases h
    | ok route' =>
      simp only [found, hanswer] at h
      rw [List.lookup_cons] at h
      split at h
      · next hp =>
        cases h
        rw [eq_of_beq hp, hanswer]
      -- it was found later, and no request in between has changed the answer
      · rw [← ih h, answer_afterRequest]

/-- What is found is remembered. -/
theorem remembered?_of_found (h : (found reg ps r).lookup p = some route) :
    (afterRequests reg ps r).remembered? p.1 p.2 = some route := by
  have hknows : (afterRequests reg ps r).knows (p.1, p.2) := by
    rw [knows_afterRequests, h, Option.isSome_some, Bool.or_true]
  obtain ⟨route', hroute', hanswer⟩ := answer_of_knows reg hknows
  rw [(asked_afterRequests reg ps r).answer_eq, answer_of_found h] at hanswer
  rw [hroute', Except.ok.inj hanswer]

/-! ## Chains from an encoding to itself -/

/-- The chains that are remembered from an encoding to itself are copies. -/
def CopiesSelf (r : Router ρ) : Prop :=
  ∀ src dst route, r.remembered? src dst = some route → src = dst → route.links = [.copy]

/-- An empty cache has no chain from a tag to itself. -/
theorem copiesSelf_of_empty (h : r.known = .empty) : r.CopiesSelf := by
  intro src dst route hroute
  rw [remembered?_of_empty h] at hroute
  cases hroute

/-- A chain from an encoding to itself is a copy. -/
theorem CopiesSelf.links (hr : r.CopiesSelf) {k : Key} (h : r.answer reg k k = .ok route) :
    route.links = [.copy] := by
  cases hknown : r.remembered? k k with
  | some route' =>
    rw [answer_of_remembered hknown] at h
    cases h
    exact hr k k _ hknown rfl
  | none =>
    rw [answer_of_not_remembered hknown] at h
    exact Registry.links_of_resolve_self h

end Router

end Attitude
