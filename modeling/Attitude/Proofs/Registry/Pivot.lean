import Attitude.Proofs.Registry.Resolution

/-!
# The way through the canonical encoding

Two encodings with a common canonical one are linked to it one by one (`Registry.canonicalLink`): an
encoding that is canonical itself by a copy, any other one by its leg. The way from the one to the
other is made of these two links, less the copies (`pivot_eq_ok_iff`). So it exists exactly if both
links exist, and it does not matter whether one of the two encodings is canonical itself.
-/

namespace Attitude

variable {ρ : Type}

/-- Whether a link is more than a copy. -/
def Link.isRule : Link ρ → Bool
  | .copy => false
  | .rule _ => true

namespace Registry

variable {reg : Registry ρ} {a b : Tag} {ra rb : Traits} {route : Route ρ}

/-! ## Links to and from the canonical encoding -/

/-- From and to itself the canonical encoding is copied. -/
theorem canonicalLink_of_canonical (d : Direction) (ha : reg.traits.get? a = some ra)
    (hc : ra.canonical = a) : reg.canonicalLink d (.tag a) = .ok .copy := by
  simp only [canonicalLink, find_tag_of_traits ha, bind, Except.bind, if_pos hc]
  rfl

/-- Other encodings have a leg for this. -/
theorem canonicalLink_of_not_canonical (d : Direction) (ha : reg.traits.get? a = some ra)
    (hc : ra.canonical ≠ a) : reg.canonicalLink d (.tag a) = (reg.leg d a).map .rule := by
  simp only [canonicalLink, find_tag_of_traits ha, bind, Except.bind, if_neg hc]
  cases reg.leg d a <;> rfl

/-- Whether a tag is the canonical one of its record. -/
theorem isCanonical_of_traits (ha : reg.traits.get? a = some ra) :
    reg.isCanonical (.tag a) = .ok (decide (ra.canonical = a)) := by
  simp only [isCanonical, find_tag_of_traits ha, bind, Except.bind]
  rfl

/-! ## The two links of a way -/

/-- A way from the canonical encoding consists of one leg. -/
theorem pivot_of_source (hs : ra.canonical = rb.canonical) (hc : ra.canonical = a) :
    reg.pivot a b ra rb = (reg.leg .fromCanonical b).map fun f => ⟨.pivot, [.rule f]⟩ := by
  simp only [pivot, if_neg (Decidable.not_not.2 hs), if_pos hc]
  cases reg.leg .fromCanonical b <;> rfl

/-- A way to the canonical encoding consists of one leg. -/
theorem pivot_of_target (hs : ra.canonical = rb.canonical) (ha : ra.canonical ≠ a)
    (hc : rb.canonical = b) :
    reg.pivot a b ra rb = (reg.leg .toCanonical a).map fun f => ⟨.pivot, [.rule f]⟩ := by
  simp only [pivot, if_neg (Decidable.not_not.2 hs), if_neg ha, if_pos hc]
  cases reg.leg .toCanonical a <;> rfl

/-- Any other way consists of both legs. -/
theorem pivot_of_neither (hs : ra.canonical = rb.canonical) (ha : ra.canonical ≠ a)
    (hb : rb.canonical ≠ b) :
    reg.pivot a b ra rb = (do
      let f ← reg.leg .toCanonical a
      let g ← reg.leg .fromCanonical b
      pure ⟨.pivot, [.rule f, .rule g]⟩) := by
  simp only [pivot, if_neg (Decidable.not_not.2 hs), if_neg ha, if_neg hb]

/-- **The way through the canonical encoding** is the link to it and the link from it, less the
copies. -/
theorem pivot_eq_ok_iff (ha : reg.traits.get? a = some ra) (hb : reg.traits.get? b = some rb)
    (hab : a ≠ b) (hs : ra.canonical = rb.canonical) :
    reg.pivot a b ra rb = .ok route ↔ ∃ l m, reg.canonicalLink .toCanonical (.tag a) = .ok l ∧
      reg.canonicalLink .fromCanonical (.tag b) = .ok m ∧
      route = ⟨.pivot, [l, m].filter Link.isRule⟩ := by
  by_cases hca : ra.canonical = a
  · -- not both are canonical, as they would be the same tag
    have hcb : rb.canonical ≠ b := fun e => hab (by rw [← hca, hs, e])
    rw [pivot_of_source hs hca, canonicalLink_of_canonical _ ha hca,
      canonicalLink_of_not_canonical _ hb hcb]
    cases reg.leg .fromCanonical b with
    | error e => exact ⟨nofun, nofun⟩
    | ok f =>
      refine ⟨fun h => ⟨_, _, rfl, rfl, (Except.ok.inj h).symm⟩, ?_⟩
      rintro ⟨_, _, ⟨⟩, ⟨⟩, rfl⟩
      rfl
  · rw [canonicalLink_of_not_canonical _ ha hca]
    by_cases hcb : rb.canonical = b
    · rw [pivot_of_target hs hca hcb, canonicalLink_of_canonical _ hb hcb]
      cases reg.leg .toCanonical a with
      | error e => exact ⟨nofun, nofun⟩
      | ok f =>
        refine ⟨fun h => ⟨_, _, rfl, rfl, (Except.ok.inj h).symm⟩, ?_⟩
        rintro ⟨_, _, ⟨⟩, ⟨⟩, rfl⟩
        rfl
    · rw [pivot_of_neither hs hca hcb, canonicalLink_of_not_canonical _ hb hcb]
      cases reg.leg .toCanonical a with
      | error e => exact ⟨nofun, nofun⟩
      | ok f =>
        cases reg.leg .fromCanonical b with
        | error e => exact ⟨nofun, nofun⟩
        | ok g =>
          refine ⟨fun h => ⟨_, _, rfl, rfl, (Except.ok.inj h).symm⟩, ?_⟩
          rintro ⟨_, _, ⟨⟩, ⟨⟩, rfl⟩
          rfl

end Registry

end Attitude
