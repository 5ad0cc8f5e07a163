import Attitude.Proofs.Registry.Pivot
import Attitude.Proofs.Router.Requests

/-!
# Tags that have a chain between them

A tag with traits and both legs is *equipped*. Between two equipped tags that name the same
canonical encoding there is a chain, and a chain has one link or two. A router that is asked for it
answers from its memory or from the tables, so it answers a chain of one or two links as well, even
if the one that it remembers is out of date.
-/

namespace Attitude

variable {ρ : Type}

namespace Registry

/-- The tag has traits and a leg in each direction. -/
structure Equipped (reg : Registry ρ) (t : Tag) : Prop where
  traits : ∃ r, reg.traits.get? t = some r
  legs : reg.hasLegs (.tag t) = true

/-- The traits of the two tags name the same canonical encoding. -/
def Share (reg : Registry ρ) (t u : Tag) : Prop :=
  ∃ rt ru, reg.traits.get? t = some rt ∧ reg.traits.get? u = some ru ∧ rt.canonical = ru.canonical

variable {reg : Registry ρ} {t u : Tag}

/-- A tag that is equipped has both legs. -/
theorem Equipped.leg (ht : reg.Equipped t) (d : Direction) : ∃ f, reg.leg d t = .ok f := by
  have hlegs := ht.legs
  rw [hasLegs, Bool.and_eq_true, Option.isSome_iff_exists, Option.isSome_iff_exists] at hlegs
  obtain ⟨⟨f, hf⟩, g, hg⟩ := hlegs
  cases d with
  | toCanonical => exact ⟨f, by simp only [Registry.leg, hf]⟩
  | fromCanonical => exact ⟨g, by simp only [Registry.leg, hg]⟩

/-- A tag that is equipped has a link in either direction, a leg or a copy. -/
theorem Equipped.canonicalLink (ht : reg.Equipped t) (d : Direction) :
    ∃ l, reg.canonicalLink d (.tag t) = .ok l := by
  obtain ⟨r, hr⟩ := ht.traits
  by_cases hc : r.canonical = t
  · exact ⟨_, canonicalLink_of_canonical d hr hc⟩
  · obtain ⟨f, hf⟩ := ht.leg d
    exact ⟨.rule f, by rw [canonicalLink_of_not_canonical d hr hc, hf]; rfl⟩

/-- Two equipped tags with a common canonical encoding have a chain. -/
theorem Equipped.resolve (ht : reg.Equipped t) (hu : reg.Equipped u) (hs : reg.Share t u) :
    ∃ route, reg.resolve (.tag t) (.tag u) = .ok route := by
  obtain ⟨rt, ru, hrt, hru, hshared⟩ := hs
  by_cases htu : t = u
  · subst htu
    exact ⟨_, (Chain.copy hrt).resolve_eq⟩
  cases hd : reg.direct.get? (t, u) with
  | some f => exact ⟨_, (Chain.direct hrt hru htu hd).resolve_eq⟩
  | none =>
    obtain ⟨l, hl⟩ := ht.canonicalLink .toCanonical
    obtain ⟨m, hm⟩ := hu.canonicalLink .fromCanonical
    have hpivot := (pivot_eq_ok_iff hrt hru htu hshared).2 ⟨l, m, hl, hm, rfl⟩
    exact ⟨_, (Chain.pivot hrt hru htu hd hpivot).resolve_eq⟩

/-- A chain by way of the canonical encoding has one link or two. -/
theorem links_of_pivot {a b : Tag} {ra rb : Traits} {route : Route ρ}
    (h : reg.pivot a b ra rb = .ok route) : route.links.length = 1 ∨ route.links.length = 2 := by
  obtain ⟨hs, -⟩ := pivot_ok h
  -- at a canonical end the chain has no link there
  by_cases ha : ra.canonical = a
  · rw [pivot_of_source hs ha] at h
    cases hf : reg.leg .fromCanonical b with
    | error e => rw [hf] at h; cases h
    | ok f => rw [hf] at h; cases h; exact .inl rfl
  by_cases hb : rb.canonical = b
  · rw [pivot_of_target hs ha hb] at h
    cases hf : reg.leg .toCanonical a with
    | error e => rw [hf] at h; cases h
    | ok f => rw [hf] at h; cases h; exact .inl rfl
  rw [pivot_of_neither hs ha hb] at h
  cases hf : reg.leg .toCanonical a with
  | error e => rw [hf] at h; cases h
  | ok f =>
    cases hg : reg.leg .fromCanonical b with
    | error e => rw [hf, hg] at h; cases h
    | ok g => rw [hf, hg] at h; cases h; exact .inr rfl

/-- Every chain has one link or two. -/
theorem links_of_resolve {src dst : Key} {route : Route ρ} (h : reg.resolve src dst = .ok route) :
    route.links.length = 1 ∨ route.links.length = 2 := by
  cases resolve_eq_ok_iff.1 h with
  | copy => exact .inl rfl
  | direct => exact .inl rfl
  | pivot _ _ _ _ hp => exact links_of_pivot hp

end Registry

namespace Router

/-- Every chain that is remembered has one link or two. -/
def Short (r : Router ρ) : Prop :=
  ∀ src dst route, r.remembered? src dst = some route →
    route.links.length = 1 ∨ route.links.length = 2

variable {reg : Registry ρ} {r : Router ρ} {t u : Tag}

theorem short_of_empty (h : r.known = .empty) : r.Short := by
  intro src dst route hr
  rw [remembered?_of_empty h] at hr
  cases hr

/-- **Requests.** Between equipped tags with a common canonical encoding the router answers a chain
of one or two links, whether it remembers one or not. -/
theorem Short.answer (hr : r.Short) (ht : reg.Equipped t) (hu : reg.Equipped u)
    (hs : reg.Share t u) : ∃ route, r.answer reg (.tag t) (.tag u) = .ok route ∧
      (route.links.length = 1 ∨ route.links.length = 2) := by
  cases h : r.remembered? (.tag t) (.tag u) with
  | some route => exact ⟨route, answer_of_remembered h, hr _ _ route h⟩
  | none =>
    obtain ⟨route, hroute⟩ := ht.resolve hu hs
    rw [answer_of_not_remembered h]
    exact ⟨route, hroute, Registry.links_of_resolve hroute⟩

end Router

end Attitude
