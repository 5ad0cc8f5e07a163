import Attitude.Registry

/-!
# What a resolution depends on

`Registry.resolve` reads the traits of its two keys, the direct rules and the legs. `Chain` lists
the three ways in which it finds a chain, and `resolve_eq_ok_iff` says that there are no others.

From this follows what becomes of a chain when the traits of one tag are registered again
(`resolve_setTraits`): it stays, unless it leads through a canonical encoding, has that tag at one
of its ends, and the tag is given another canonical encoding.
-/

namespace Attitude

namespace Registry

variable {ρ : Type} {reg : Registry ρ}

/-- The registry in which a tag has the given traits. -/
def setTraits (reg : Registry ρ) (t : Tag) (r : Traits) : Registry ρ :=
  { reg with traits := reg.traits.insert t r }

/-! ## Registered tags -/

theorem find_tag_of_traits {t : Tag} {r : Traits} (h : reg.traits.get? t = some r) :
    reg.find (.tag t) = .ok (t, r) := by
  simp only [find, h]

/-- Whatever a registry finds is a tag with its traits. -/
theorem find_cases {k : Key} {p : Tag × Traits} (h : reg.find k = .ok p) :
    k = .tag p.1 ∧ reg.traits.get? p.1 = some p.2 := by
  cases k with
  | tag t =>
    simp only [find] at h
    cases hg : reg.traits.get? t with
    | none => rw [hg] at h; cases h
    | some r =>
      rw [hg] at h
      cases h
      exact ⟨rfl, hg⟩
  | text s => cases h
  | missing => cases h

/-! ## The chain between two registered tags -/

/-- The chain between registered tags, without the search for their traits. -/
theorem resolve_of_traits {a b : Tag} {ra rb : Traits} (ha : reg.traits.get? a = some ra)
    (hb : reg.traits.get? b = some rb) :
    reg.resolve (.tag a) (.tag b) =
      if a = b then .ok ⟨.copy, [.copy]⟩
      else match reg.direct.get? (a, b) with
        | some f => .ok ⟨.direct, [.rule f]⟩
        | none => reg.pivot a b ra rb := by
  simp only [resolve, find_tag_of_traits ha, find_tag_of_traits hb, bind, Except.bind]
  split <;> rfl

/-- A way through the canonical encoding exists only between tags that share one, and it is marked
as such. -/
theorem pivot_ok {a b : Tag} {ra rb : Traits} {route : Route ρ}
    (h : reg.pivot a b ra rb = .ok route) : ra.canonical = rb.canonical ∧ route.kind = .pivot := by
  simp only [pivot, bind, Except.bind, pure, Except.pure, throw, throwThe,
    MonadExceptOf.throw] at h
  split at h
  · cases h
  · next hc =>
    refine ⟨Decidable.not_not.1 hc, ?_⟩
    repeat' split at h
    all_goals first | cases h; rfl | cases h

/-- Two tags that do not share a canonical encoding have no way through one. -/
theorem pivot_of_ne {a b : Tag} {ra rb : Traits} (h : ra.canonical ≠ rb.canonical) :
    reg.pivot a b ra rb = .error (.notShared a b) := by
  simp only [pivot, bind, Except.bind, throw, throwThe, MonadExceptOf.throw, if_pos h]

/-- Different tags without a direct rule between them have no chain unless they share a canonical
encoding. -/
theorem resolve_of_unshared {a b : Tag} {ra rb : Traits} (ha : reg.traits.get? a = some ra)
    (hb : reg.traits.get? b = some rb) (hne : a ≠ b) (hd : reg.direct.get? (a, b) = none)
    (h : ra.canonical ≠ rb.canonical) :
    reg.resolve (.tag a) (.tag b) = .error (.notShared a b) := by
  rw [resolve_of_traits ha hb, if_neg hne, hd]
  exact pivot_of_ne h

/-- The way through the canonical encoding reads nothing of the traits but the canonical tags. -/
theorem pivot_congr (reg : Registry ρ) (a b : Tag) {ra ra' rb rb' : Traits}
    (ha : ra'.canonical = ra.canonical) (hb : rb'.canonical = rb.canonical) :
    reg.pivot a b ra' rb' = reg.pivot a b ra rb := by
  simp only [pivot, ha, hb]

/-- The ways in which a registry finds a chain. -/
inductive Chain (reg : Registry ρ) : Key → Key → Route ρ → Prop where
  | copy {a : Tag} {ra : Traits} (ha : reg.traits.get? a = some ra) :
      Chain reg (.tag a) (.tag a) ⟨.copy, [.copy]⟩
  | direct {a b : Tag} {ra rb : Traits} {f : ρ} (ha : reg.traits.get? a = some ra)
      (hb : reg.traits.get? b = some rb) (hne : a ≠ b) (hd : reg.direct.get? (a, b) = some f) :
      Chain reg (.tag a) (.tag b) ⟨.direct, [.rule f]⟩
  | pivot {a b : Tag} {ra rb : Traits} {route : Route ρ} (ha : reg.traits.get? a = some ra)
      (hb : reg.traits.get? b = some rb) (hne : a ≠ b) (hd : reg.direct.get? (a, b) = none)
      (hp : reg.pivot a b ra rb = .ok route) : Chain reg (.tag a) (.tag b) route

/-- Each chain of the specification is the one that is found. -/
theorem Chain.resolve_eq {src dst : Key} {route : Route ρ} (h : Chain reg src dst route) :
    reg.resolve src dst = .ok route := by
  cases h with
  | copy ha => rw [resolve_of_traits ha ha, if_pos rfl]
  | direct ha hb hne hd => rw [resolve_of_traits ha hb, if_neg hne, hd]
  | pivot ha hb hne hd hp => rw [resolve_of_traits ha hb, if_neg hne, hd]; exact hp

/-- **Resolution.** What is found is exactly what the specification has. -/
theorem resolve_eq_ok_iff {src dst : Key} {route : Route ρ} :
    reg.resolve src dst = .ok route ↔ Chain reg src dst route := by
  refine ⟨fun h => ?_, Chain.resolve_eq⟩
  cases hs : reg.find src with
  | error e => simp [resolve, hs, bind, Except.bind] at h
  | ok p =>
    cases hd : reg.find dst with
    | error e => simp [resolve, hs, hd, bind, Except.bind] at h
    | ok q =>
      obtain ⟨rfl, ha⟩ := find_cases hs
      obtain ⟨rfl, hb⟩ := find_cases hd
      -- both records are there; what is left is the order in which the rules are looked for
      rw [resolve_of_traits ha hb] at h
      split at h
      · next e =>
        cases h
        rw [← e]
        exact .copy ha
      · next hne =>
        split at h
        · next f hf =>
          cases h
          exact .direct ha hb hne hf
        · next hf => exact .pivot ha hb hne hf h

/-- The chain from an encoding to itself is a copy. -/
theorem links_of_resolve_self {k : Key} {route : Route ρ} (h : reg.resolve k k = .ok route) :
    route.links = [.copy] := by
  cases resolve_eq_ok_iff.1 h with
  | copy => rfl
  | direct _ _ hne => exact absurd rfl hne
  | pivot _ _ hne => exact absurd rfl hne

/-- Only tags have chains between them. -/
theorem tags_of_resolve_ok {src dst : Key} {route : Route ρ}
    (h : reg.resolve src dst = .ok route) : ∃ a b, src = .tag a ∧ dst = .tag b := by
  cases resolve_eq_ok_iff.1 h <;> exact ⟨_, _, rfl, rfl⟩

/-! ## Traits that are registered again

A tag that was registered stays registered. So only the canonical tags can make a difference, and
they are read for the way through the canonical encoding alone. -/

/-- `t` is given another canonical encoding than the one that it has. -/
def Recanonizes (reg : Registry ρ) (t : Tag) (r : Traits) : Prop :=
  ∃ old, reg.traits.get? t = some old ∧ old.canonical ≠ r.canonical

theorem traits_setTraits (t a : Tag) (r : Traits) :
    (reg.setTraits t r).traits.get? a = if a = t then some r else reg.traits.get? a :=
  Table.get?_insert ..

/-- A registered tag is registered afterwards, with the same canonical tag unless it is the one that
is given another. -/
theorem traits_setTraits_of_some {t a : Tag} {r ra : Traits} (ha : reg.traits.get? a = some ra) :
    ∃ ra', (reg.setTraits t r).traits.get? a = some ra' ∧
      (¬ (a = t ∧ reg.Recanonizes t r) → ra'.canonical = ra.canonical) := by
  rw [traits_setTraits]
  by_cases h : a = t
  · refine ⟨r, if_pos h, fun hn => Decidable.byContradiction fun hne => ?_⟩
    exact hn ⟨h, ra, h ▸ ha, fun e => hne e.symm⟩
  · exact ⟨ra, by rw [if_neg h, ha], fun _ => rfl⟩

/-- **Registering traits again.** A chain stays what it was, unless it leads through a canonical
encoding and the tag at one of its ends is given another canonical encoding. -/
theorem resolve_setTraits {src dst : Key} {route : Route ρ} (t : Tag) (r : Traits)
    (h : reg.resolve src dst = .ok route) :
    (reg.setTraits t r).resolve src dst = .ok route ↔
      ¬ (route.kind = .pivot ∧ (src = .tag t ∨ dst = .tag t) ∧ reg.Recanonizes t r) := by
  -- only a chain by way of a canonical tag depends on the records
  cases resolve_eq_ok_iff.1 h with
  | copy ha =>
    obtain ⟨ra', ha', -⟩ := traits_setTraits_of_some (t := t) (r := r) ha
    exact iff_of_true (Chain.copy ha').resolve_eq (by simp)
  | direct ha hb hne hd =>
    obtain ⟨ra', ha', -⟩ := traits_setTraits_of_some (t := t) (r := r) ha
    obtain ⟨rb', hb', -⟩ := traits_setTraits_of_some (t := t) (r := r) hb
    exact iff_of_true (Chain.direct ha' hb' hne hd).resolve_eq (by simp)
  | @pivot a b ra rb _ ha hb hne hd hp =>
    obtain ⟨hshared, hkind⟩ := pivot_ok hp
    constructor
    · -- One end has another canonical tag now and the other end has not, so nothing is shared.
      rintro h' ⟨-, hend, old, hold, hcan⟩
      have hself : (reg.setTraits t r).traits.get? t = some r := by simp [traits_setTraits]
      cases hend with
      | inl e =>
        obtain rfl : t = a := (Key.tag.inj e).symm
        obtain rfl : old = ra := Option.some.inj (hold.symm.trans ha)
        have hb' : (reg.setTraits t r).traits.get? b = some rb := by
          rw [traits_setTraits, if_neg hne.symm, hb]
        have hno : r.canonical ≠ rb.canonical := fun e => hcan (hshared.trans e.symm)
        rw [resolve_of_unshared hself hb' hne hd hno] at h'
        cases h'
      | inr e =>
        obtain rfl : t = b := (Key.tag.inj e).symm
        obtain rfl : old = rb := Option.some.inj (hold.symm.trans hb)
        have ha' : (reg.setTraits t r).traits.get? a = some ra := by
          rw [traits_setTraits, if_neg hne, ha]
        have hno : ra.canonical ≠ r.canonical := fun e => hcan (hshared.symm.trans e)
        rw [resolve_of_unshared ha' hself hne hd hno] at h'
        cases h'
    · intro hn
      have hstay (c : Tag) (hc : c = a ∨ c = b) : ¬ (c = t ∧ reg.Recanonizes t r) := by
        rintro ⟨rfl, hrec⟩
        exact hn ⟨hkind, hc.imp (congrArg _ ·.symm) (congrArg _ ·.symm), hrec⟩
      obtain ⟨ra', ha', hra⟩ := traits_setTraits_of_some (t := t) (r := r) ha
      obtain ⟨rb', hb', hrb⟩ := traits_setTraits_of_some (t := t) (r := r) hb
      refine (Chain.pivot ha' hb' hne hd ?_).resolve_eq
      have hcongr := pivot_congr reg a b (hra (hstay a (.inl rfl))) (hrb (hstay b (.inr rfl)))
      exact hcongr.trans hp

end Registry

end Attitude
