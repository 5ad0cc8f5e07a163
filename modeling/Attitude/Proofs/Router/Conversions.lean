import Attitude.Proofs.Registry.Pivot
import Attitude.Proofs.Router.Requests
import Attitude.Proofs.Session.Outcome

/-!
# Two ways to convert

A conversion asks the router for its chain. The legs of an encoding take data to its canonical
encoding and back without asking. Where both ways lead to the same encoding they give the same
content, whatever the rules are: `Action` says what a rule does to data, and nothing is asked of it
but that it sees the content alone.

The router has to answer from its tables for that. `Reached reg r` describes how it comes to do so:
it starts with nothing in memory, whatever the tables are then, and from there on conversions are
registered and chains are asked for, but no traits are registered (`Reached.coherent`).

The two ways need not fail with the same fault. The router looks for both legs before it applies
one, and the other way applies the first leg before it looks for the second.
-/

namespace Attitude

variable {ρ δ κ : Type}

/-! ## Tables and routers -/

namespace Registry

/-- The registry in which a tag has the given legs. -/
def setLegs (reg : Registry ρ) (t : Tag) (f g : ρ) : Registry ρ :=
  { reg with
    toCanonical := reg.toCanonical.insert t f
    fromCanonical := reg.fromCanonical.insert t g }

/-- The registry with a direct rule between two tags. -/
def setDirect (reg : Registry ρ) (a b : Tag) (f : ρ) : Registry ρ :=
  { reg with direct := reg.direct.insert (a, b) f }

/-- Two encodings with a common canonical one and no direct rule from the first to the second. -/
structure Pivots (reg : Registry ρ) (a b : Tag) : Prop where
  ne : a ≠ b
  shared : ∃ ra rb, reg.traits.get? a = some ra ∧ reg.traits.get? b = some rb ∧
    ra.canonical = rb.canonical
  direct : reg.direct.get? (a, b) = none

/-- The chain from `a` to `b` is the link from `a` to its canonical encoding. -/
inductive LeadsTo (reg : Registry ρ) (a b : Tag) : Prop where
  /-- An encoding that is its own canonical one is copied. -/
  | itself {ra : Traits} (hab : a = b) (ha : reg.traits.get? a = some ra) (hown : ra.canonical = a)
  /-- A direct rule is the leg of `a`. It does not matter then which encodings are canonical, so
  long as `a` is not. -/
  | direct {ra rb : Traits} {f : ρ} (hab : a ≠ b) (ha : reg.traits.get? a = some ra)
      (hb : reg.traits.get? b = some rb) (hforeign : ra.canonical ≠ a)
      (hd : reg.direct.get? (a, b) = some f) (hleg : reg.toCanonical.get? a = some f)
  /-- There is no direct rule, and `b` is the canonical encoding of both. -/
  | shared {ra rb : Traits} (hab : a ≠ b) (ha : reg.traits.get? a = some ra)
      (hb : reg.traits.get? b = some rb) (hra : ra.canonical = b) (hrb : rb.canonical = b)
      (hd : reg.direct.get? (a, b) = none)

variable {reg : Registry ρ} {a b : Tag}

/-- The chain is found, or is missing, as the link is. -/
theorem LeadsTo.resolve_eq (h : reg.LeadsTo a b) : ∃ kind, reg.resolve (.tag a) (.tag b) =
    (reg.canonicalLink .toCanonical (.tag a)).map fun l => ⟨kind, [l]⟩ := by
  -- each of the three ways has the leg for its only link
  cases h with
  | itself hab ha hown =>
    subst hab
    rw [resolve_of_traits ha ha, if_pos rfl, canonicalLink_of_canonical _ ha hown]
    exact ⟨.copy, rfl⟩
  | direct hab ha hb hforeign hd hleg =>
    rw [resolve_of_traits ha hb, if_neg hab, hd, canonicalLink_of_not_canonical _ ha hforeign]
    simp only [leg, hleg]
    exact ⟨.direct, rfl⟩
  | @shared ra rb hab ha hb hra hrb hd =>
    have hforeign : ra.canonical ≠ a := fun hown => hab (hown.symm.trans hra)
    rw [resolve_of_traits ha hb, if_neg hab, hd, canonicalLink_of_not_canonical _ ha hforeign]
    simp only [pivot_of_target (hra.trans hrb.symm) hforeign hrb]
    refine ⟨.pivot, ?_⟩
    cases reg.leg .toCanonical a <;> rfl

/-- The link from an encoding to its canonical one is a copy, or the leg. -/
theorem canonicalLink_cases {ra : Traits} {l : Link ρ} (ha : reg.traits.get? a = some ra)
    (hl : reg.canonicalLink .toCanonical (.tag a) = .ok l) : ra.canonical = a ∧ l = .copy ∨
      ∃ f, ra.canonical ≠ a ∧ reg.toCanonical.get? a = some f ∧ l = .rule f := by
  by_cases hown : ra.canonical = a
  · rw [canonicalLink_of_canonical _ ha hown] at hl
    exact .inl ⟨hown, (Except.ok.inj hl).symm⟩
  · rw [canonicalLink_of_not_canonical _ ha hown] at hl
    cases hf : reg.toCanonical.get? a with
    | none =>
      simp only [leg, hf] at hl
      cases hl
    | some f =>
      simp only [leg, hf] at hl
      exact .inr ⟨f, hown, rfl, (Except.ok.inj hl).symm⟩

/-- **Exactness.** Where there is a link from `a` to its canonical encoding, the chain from `a` to
`b` is this link in no other way. -/
theorem leadsTo_iff {l : Link ρ} (hl : reg.canonicalLink .toCanonical (.tag a) = .ok l) :
    reg.LeadsTo a b ↔ ∃ kind, reg.resolve (.tag a) (.tag b) = .ok ⟨kind, [l]⟩ := by
  constructor
  · intro h
    obtain ⟨kind, hk⟩ := h.resolve_eq
    rw [hl] at hk
    exact ⟨kind, hk⟩
  · rintro ⟨kind, h⟩
    cases resolve_eq_ok_iff.1 h with
    | copy ha =>
      obtain ⟨hown, -⟩ | ⟨f, -, -, hf⟩ := canonicalLink_cases ha hl
      · exact .itself rfl ha hown
      · cases hf
    | direct ha hb hab hd =>
      obtain ⟨-, hf⟩ | ⟨f, hforeign, hleg, hf⟩ := canonicalLink_cases ha hl
      · cases hf
      · cases hf
        exact .direct hab ha hb hforeign hd hleg
    | @pivot _ _ ra rb _ ha hb hab hd hp =>
      have hshared : ra.canonical = rb.canonical := (pivot_ok hp).1
      obtain ⟨hown, rfl⟩ | ⟨f, hforeign, -, rfl⟩ := canonicalLink_cases ha hl
      · -- a way that starts at the canonical encoding has no copies
        rw [pivot_of_source hshared hown] at hp
        obtain ⟨g, -, hp⟩ := exists_of_map_eq_ok hp
        cases hp
      · by_cases hrb : rb.canonical = b
        · exact .shared hab ha hb (hshared.trans hrb) hrb hd
        · -- a way that ends elsewhere has two links
          rw [pivot_of_neither hshared hforeign hrb] at hp
          obtain ⟨f', -, hp⟩ := exists_of_bind_eq_ok hp
          obtain ⟨g, -, hp⟩ := exists_of_bind_eq_ok hp
          cases hp

end Registry

namespace Router

/-- The ways in which a router and its tables come about when no traits are registered any more. -/
inductive Reached : Registry ρ → Router ρ → Prop
  | start (reg : Registry ρ) {r : Router ρ} (hr : r.known = .empty) : Reached reg r
  | legs {reg : Registry ρ} {r : Router ρ} (t : Tag) (f g : ρ) (why : Event)
      (h : Reached reg r) : Reached (reg.setLegs t f g) (r.forget why)
  | direct {reg : Registry ρ} {r : Router ρ} (a b : Tag) (f : ρ) (why : Event)
      (h : Reached reg r) : Reached (reg.setDirect a b f) (r.forget why)
  | request {reg : Registry ρ} {r : Router ρ} (src dst : Key) (h : Reached reg r) :
      Reached reg (r.afterRequest reg src dst)
  | drained {reg : Registry ρ} {r : Router ρ} (h : Reached reg r) : Reached reg r.drained

variable {reg : Registry ρ} {r r' : Router ρ}

/-- A router that requests could have led to agrees with the tables. -/
theorem Reached.coherent (h : Reached reg r) : r.Coherent reg := by
  induction h with
  | start reg hr => exact coherent_of_empty hr
  | legs t f g why _ _ => exact coherent_of_empty rfl
  | direct a b f why _ _ => exact coherent_of_empty rfl
  | request src dst _ ih => exact (Asked.one _ src dst _).coherent ih
  | drained _ ih => exact fun src dst => (answer_drained _ _ src dst).trans (ih src dst)

/-- Requests lead on from such a router. -/
theorem Reached.asked (h : Reached reg r) (h' : Asked reg r r') : Reached reg r' := by
  induction h' with
  | refl => exact h
  | request src dst _ ih => exact .request src dst ih

end Router

/-! ## Rules on data -/

/-- What rules do to data. A copy has the content of the data, and a rule sees nothing else. -/
structure Action (ρ δ κ : Type) where
  rule : ρ → δ → Except Fault δ
  copy : δ → δ
  content : δ → κ
  content_copy : ∀ d, content (copy d) = content d
  content_rule : ∀ f d e, content d = content e →
    SameOutcome (fun x y => content x = content y) (rule f d) (rule f e)

namespace Action

/-- Any functions are an action on data that is nothing but its content. -/
def ofFunctions (rule : ρ → κ → Except Fault κ) : Action ρ κ κ where
  rule := rule
  copy := id
  content := id
  content_copy _ := rfl
  content_rule f _ _ h := .of_eq (congrArg (rule f) h)

variable (A : Action ρ δ κ)

/-- Applies one link. -/
def link (d : δ) : Link ρ → Except Fault δ
  | .copy => .ok (A.copy d)
  | .rule f => A.rule f d

/-- Applies the chain that the router answers. -/
def convert (reg : Registry ρ) (r : Router ρ) (d : δ) (src dst : Key) : Except Fault δ := do
  let route ← r.answer reg src dst
  route.links.foldlM A.link d

/-- Applies the link to the canonical encoding. -/
def toCanonical (reg : Registry ρ) (d : δ) (k : Key) : Except Fault δ := do
  A.link d (← reg.canonicalLink .toCanonical k)

/-- Applies the link from the canonical encoding. -/
def fromCanonical (reg : Registry ρ) (d : δ) (k : Key) : Except Fault δ := do
  A.link d (← reg.canonicalLink .fromCanonical k)

/-- A chain gives the same content without its copies. -/
theorem links_filter (ls : List (Link ρ)) {d e : δ} (h : A.content d = A.content e) :
    SameOutcome (fun x y => A.content x = A.content y) ((ls.filter Link.isRule).foldlM A.link d)
      (ls.foldlM A.link e) := by
  induction ls generalizing d e with
  | nil => exact .ok h
  | cons l ls ih =>
    cases l with
    | copy =>
      -- only the right side copies, and its content stays
      exact ih (h.trans (A.content_copy e).symm)
    | rule f => exact .bind (A.content_rule f d e h) fun _ _ => ih

theorem foldlM_link (l : Link ρ) (d : δ) : [l].foldlM A.link d = A.link d l := by
  show A.link d l >>= pure = A.link d l
  exact bind_pure _

variable {reg : Registry ρ} {r : Router ρ} {a b : Tag}

/-- **To the canonical encoding** the router leads as the leg does. -/
theorem convert_canonical (hr : r.Coherent reg) (hab : reg.LeadsTo a b) (d : δ) :
    A.convert reg r d (.tag a) (.tag b) = A.toCanonical reg d (.tag a) := by
  obtain ⟨kind, hroute⟩ := hab.resolve_eq
  rw [convert, hr, hroute, toCanonical]
  cases reg.canonicalLink .toCanonical (.tag a) with
  | error e => rfl
  | ok l => exact A.foldlM_link l d

/-- **Through the canonical encoding** the router leads as the two legs do, one after the other. -/
theorem convert_through (hr : r.Coherent reg) (hab : reg.Pivots a b) (d : δ) :
    (A.convert reg r d (.tag a) (.tag b)).toOption.map A.content =
      (do
        let c ← A.toCanonical reg d (.tag a)
        A.fromCanonical reg c (.tag b)).toOption.map A.content := by
  obtain ⟨hne, ⟨ra, rb, ha, hb, hs⟩, hd⟩ := hab
  rw [convert, hr, Registry.resolve_of_traits ha hb, if_neg hne, hd]
  have hpivot {route : Route ρ} : reg.pivot a b ra rb = .ok route ↔ _ :=
    Registry.pivot_eq_ok_iff ha hb hne hs
  cases hp : reg.pivot a b ra rb with
  | ok route =>
    obtain ⟨l, m, hl, hm, rfl⟩ := hpivot.1 hp
    have hlegs : (do
        let c ← A.toCanonical reg d (.tag a)
        A.fromCanonical reg c (.tag b)) = [l, m].foldlM A.link d := by
      simp only [toCanonical, fromCanonical, hl, hm, List.foldlM_cons, List.foldlM_nil, bind_pure]
      rfl
    rw [hlegs]
    exact (A.links_filter [l, m] rfl).toOption_map_eq
  | error e =>
    cases hlegs : (do
        let c ← A.toCanonical reg d (.tag a)
        A.fromCanonical reg c (.tag b)) with
    | error e' => rfl
    | ok k =>
      -- both legs were found, so there is a chain of them
      obtain ⟨c, hc, hk⟩ := exists_of_bind_eq_ok hlegs
      obtain ⟨l, hl, -⟩ := exists_of_bind_eq_ok hc
      obtain ⟨m, hm, -⟩ := exists_of_bind_eq_ok hk
      rw [hpivot.2 ⟨l, m, hl, hm, rfl⟩] at hp
      cases hp

end Action

end Attitude
