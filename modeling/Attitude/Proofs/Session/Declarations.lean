import Attitude.Proofs.Registry.Resolution
import Attitude.Session.Declaration

/-!
# What an accepted declaration brings about

`Accepted c d r` lists the ways in which a catalog `c` accepts a declaration `d`, with everything
that was checked, and `accepted_of_declare` says that there are no others. `Accepted.registry_cases`
sorts them by what they do to conversions.
-/

namespace Attitude

namespace Catalog

/-- The canonical tag of a registration, which is the one of rotation matrices if none is named. -/
def canonicalNamed (c : Catalog) : Option String → Except Fault Tag
  | some name => c.tagOfRotations name
  | none => .ok .matrix

/-- The ways in which a declaration is accepted. -/
inductive Accepted (c : Catalog) : Declaration → Declared → Prop where
  | tag (name : String) (ofRotations : Bool) :
      Accepted c (.tag name ofRotations) { catalog := c.declareTag name ofRotations }
  | traits {tag : String} {canonical : Option String} {t k : Tag} (shape : List Nat)
      (ht : c.tagOfRotations tag = .ok t)
      (hk : c.canonicalNamed canonical = .ok k) :
      Accepted c (.traits tag shape canonical)
        { catalog := c.setTraits t ⟨shape, k⟩, registered := some (t, ⟨shape, k⟩) }
  | legs {tag : String} {t : Tag} {r : Traits} (f g : Formula) (ht : c.key tag = .tag t)
      (hr : c.registry.traits.get? t = some r) :
      Accepted c (.legs tag f g)
        { catalog := c.setLegs t f g, event := some (.registeredPivot t) }
  | direct {source target : String} {a b : Tag} {ra rb : Traits} (f : Formula)
      (ha : c.key source = .tag a) (hra : c.registry.traits.get? a = some ra)
      (hb : c.key target = .tag b) (hrb : c.registry.traits.get? b = some rb) :
      Accepted c (.direct source target f)
        { catalog := c.setDirect a b f, event := some (.registeredDirect a b) }
  | subclass {name parent : String} {p : ElementClass} (hp : c.classNamed parent = .ok p) :
      Accepted c (.elementClass name none parent) { catalog := c.addClass { p with name := name } }
  | holder {name tag parent : String} {p : ElementClass} {t : Tag} {r : Traits}
      (hp : c.classNamed parent = .ok p) (ht : c.key tag = .tag t)
      (hr : c.registry.traits.get? t = some r) (hlegs : c.registry.hasLegs (.tag t) = true) :
      Accepted c (.elementClass name (some tag) parent)
        { catalog := c.addHolder t ⟨name, p.family, some t⟩ }

variable {c : Catalog} {d : Declaration} {r : Declared}

/-- A declaration that is accepted registers what it says, by the kind it is of, and what it needed
was there. -/
theorem accepted_of_declare (h : c.declare d = .ok r) : Accepted c d r := by
  cases d with
  | tag name ofRotations =>
    simp only [declare, checkName, bind, Except.bind, pure, Except.pure] at h
    repeat' split at h
    all_goals cases h
    exact .tag name ofRotations
  -- each lookup answered, else nothing would have been declared
  | traits tag shape canonical =>
    simp only [declare, bind, Except.bind] at h
    split at h
    · cases h
    · next t ht =>
      cases canonical with
      | none =>
        cases h
        exact .traits shape ht rfl
      | some name =>
        cases hk : c.tagOfRotations name with
        | error e => simp only [hk] at h; cases h
        | ok k =>
          simp only [hk] at h
          cases h
          exact .traits shape ht hk
  | legs tag f g =>
    simp only [declare, bind, Except.bind] at h
    split at h
    · cases h
    · next p hp =>
      cases h
      obtain ⟨ht, hr⟩ := Registry.find_cases hp
      exact .legs f g ht hr
  | direct source target f =>
    simp only [declare, bind, Except.bind] at h
    split at h
    · cases h
    · next p hp =>
      split at h
      · cases h
      · next q hq =>
        cases h
        obtain ⟨ha, hra⟩ := Registry.find_cases hp
        obtain ⟨hb, hrb⟩ := Registry.find_cases hq
        exact .direct f ha hra hb hrb
  | elementClass name tag parent =>
    simp only [declare, bind, Except.bind] at h
    split at h
    · cases h
    · next p hp =>
      split at h
      · cases h
      · cases tag with
        | none =>
          cases h
          exact .subclass hp
        | some tag =>
          simp only [declareHolder] at h
          cases hf : c.registry.find (c.key tag) with
          | error e => rw [hf] at h; cases h
          | ok q =>
            obtain ⟨ht, hr⟩ := Registry.find_cases hf
            rw [hf, ht] at h
            -- traits alone are not enough: a tag without legs is refused
            by_cases hl : c.registry.hasLegs (.tag q.1) = true
            · simp only [hl, ↓reduceIte] at h
              cases h
              exact .holder hp ht hr hl
            · simp only [hl] at h
              cases h

/-- **Declarations and conversions.** A declaration leaves the tables of conversions alone, or
registers traits, or makes the router forget its chains. -/
theorem Accepted.registry_cases (h : Accepted c d r) :
    (r.catalog.registry = c.registry ∧ r.event = none ∧ r.registered = none) ∨
      (∃ t new, r.catalog.registry = c.registry.setTraits t new ∧ r.event = none ∧
        r.registered = some (t, new)) ∨
      ((∃ event, r.event = some event) ∧ r.registered = none) := by
  cases h with
  | tag => exact .inl ⟨rfl, rfl, rfl⟩
  | traits => exact .inr (.inl ⟨_, _, rfl, rfl, rfl⟩)
  | legs => exact .inr (.inr ⟨⟨_, rfl⟩, rfl⟩)
  | direct => exact .inr (.inr ⟨⟨_, rfl⟩, rfl⟩)
  | subclass => exact .inl ⟨rfl, rfl, rfl⟩
  | holder => exact .inl ⟨rfl, rfl, rfl⟩

end Catalog

end Attitude
