import Attitude.Proofs.Router.Equipped
import Attitude.Proofs.Session.Declarations
import Attitude.Proofs.Session.Regularity

/-!
# Catalogs grow

A class is defined for equipped tags only, and a tag that is equipped stays so: traits and legs are
registered again, but never taken away (`Catalog.Accepted.grows`). `Catalog.Wired` is the invariant
that comes from the two (`Catalog.Accepted.wired`).
-/

namespace Attitude

namespace Catalog

/-- Some class holds the elements of the tag. -/
def Holds (c : Catalog) (t : Tag) : Prop := ∃ cls, c.holders.get? t = some cls

/-- The tags of the holders are equipped, the tags of the classes are held, and only a class with a
tag has elements. -/
structure Wired (c : Catalog) : Prop where
  tag : ∀ t cls, c.holders.get? t = some cls → cls.tag = some t
  equipped : ∀ t, c.Holds t → c.registry.Equipped t
  held : ∀ name cls, c.classNamed name = .ok cls → ∀ t, cls.tag = some t → c.Holds t
  tagged : ∀ name cls, c.classNamed name = .ok cls → cls.family.isSome → cls.tag.isSome

variable {c c' : Catalog} {d : Declaration} {r : Declared} {t : Tag}

theorem classNamed_eq_ok_iff {name : String} {cls : ElementClass} :
    c.classNamed name = .ok cls ↔ c.classes.get? name = some cls := by
  unfold classNamed
  cases c.classes.get? name with
  | none =>
    constructor <;> intro h <;> cases h
  | some k =>
    constructor
    · intro h
      cases h
      rfl
    · intro h
      cases h
      rfl

/-- A class that is added is found by its name, and the others by theirs. -/
theorem classNamed_addClass {cls : ElementClass} {name : String} :
    (c.addClass cls).classNamed name = if name = cls.name then .ok cls else c.classNamed name := by
  simp only [classNamed, addClass, Table.get?_insert]
  by_cases h : name = cls.name
  · simp only [if_pos h]
  · simp only [if_neg h]

/-- The classes that hold tags at the start are built in. -/
theorem mem_of_holders_initial {t : Tag} {cls : ElementClass}
    (h : Catalog.initial.holders.get? t = some cls) :
    cls ∈ ElementClass.builtin ∧ cls.tag = some t := by
  obtain ⟨k, hk, he⟩ := List.mem_filterMap.1 (Table.mem_of_get?_ofList h)
  obtain ⟨u, hu, he⟩ := Option.map_eq_some_iff.1 he
  cases he
  exact ⟨hk, hu⟩

theorem wired_initial : Wired .initial where
  tag t cls h := (mem_of_holders_initial h).2
  equipped t h := by
    obtain ⟨cls, h⟩ := h
    obtain ⟨hmem, ht⟩ := mem_of_holders_initial h
    simp only [ElementClass.builtin, List.mem_cons, List.not_mem_nil, or_false] at hmem
    obtain rfl | rfl | rfl | rfl | rfl := hmem
    all_goals
      cases ht
      exact ⟨⟨_, rfl⟩, rfl⟩
  held name cls h t ht := by
    have hmem := Table.mem_of_get?_ofList (classNamed_eq_ok_iff.1 h)
    -- a class with a name is one of the built-in ones
    obtain ⟨k, hk, he⟩ := List.mem_map.1 hmem
    cases he
    simp only [ElementClass.builtin, List.mem_cons, List.not_mem_nil, or_false] at hk
    obtain rfl | rfl | rfl | rfl | rfl | rfl := hk
    -- each built-in class has its traits and both legs in the tables
    all_goals
      cases ht
    all_goals exact ⟨_, rfl⟩
  tagged name cls h hf := by
    have hmem := Table.mem_of_get?_ofList (classNamed_eq_ok_iff.1 h)
    obtain ⟨k, hk, he⟩ := List.mem_map.1 hmem
    cases he
    simp only [ElementClass.builtin, List.mem_cons, List.not_mem_nil, or_false] at hk
    obtain rfl | rfl | rfl | rfl | rfl | rfl := hk
    · exact hf
    all_goals rfl

/-- What stays when more is declared: a tag that is held is still held, and a tag that is equipped
is still equipped. -/
structure Grows (c c' : Catalog) : Prop where
  holds : ∀ t, c.Holds t → c'.Holds t
  equipped : ∀ t, c.registry.Equipped t → c'.registry.Equipped t

/-- A new holder leaves no tag without one. -/
theorem holds_addHolder {cls : ElementClass} (u : Tag) (h : u = t ∨ c.Holds u) :
    (c.addHolder t cls).Holds u := by
  show ∃ k, (c.holders.insert t cls).get? u = some k
  rw [Table.get?_insert]
  by_cases hu : u = t
  · exact ⟨cls, if_pos hu⟩
  · rw [if_neg hu]
    exact h.resolve_left hu

/-- What is registered stays registered. -/
theorem equipped_setTraits (rt : Traits) {u : Tag} (h : c.registry.Equipped u) :
    (c.setTraits t rt).registry.Equipped u := by
  obtain ⟨⟨ru, hru⟩, hlegs⟩ := h
  refine ⟨?_, hlegs⟩
  show ∃ r, (c.registry.traits.insert t rt).get? u = some r
  rw [Table.get?_insert]
  split
  · exact ⟨rt, rfl⟩
  · exact ⟨ru, hru⟩

theorem equipped_setLegs (f g : Formula) {u : Tag} (h : c.registry.Equipped u) :
    (c.setLegs t f g).registry.Equipped u := by
  refine ⟨h.traits, ?_⟩
  have hlegs := h.legs
  rw [Registry.hasLegs, Bool.and_eq_true] at hlegs ⊢
  show ((c.registry.toCanonical.insert t f).get? u).isSome ∧
    ((c.registry.fromCanonical.insert t g).get? u).isSome
  rw [Table.get?_insert, Table.get?_insert]
  split
  · exact ⟨rfl, rfl⟩
  · exact hlegs

/-- **Declarations only add.** -/
theorem Accepted.grows (h : c.Accepted d r) : c.Grows r.catalog := by
  cases h with
  | tag => exact ⟨fun _ => id, fun _ => id⟩
  | traits shape => exact ⟨fun _ => id, fun _ => equipped_setTraits _⟩
  | legs f g => exact ⟨fun _ => id, fun _ => equipped_setLegs f g⟩
  | direct => exact ⟨fun _ => id, fun _ hu => ⟨hu.traits, hu.legs⟩⟩
  | subclass => exact ⟨fun _ => id, fun _ => id⟩
  | holder => exact ⟨fun u hu => holds_addHolder u (.inr hu), fun _ => id⟩

/-- A class may be added if its tag is held, and if it has one in case it has elements. -/
theorem Wired.addClass (hc : c.Wired) {cls : ElementClass}
    (hheld : ∀ t, cls.tag = some t → c.Holds t) (htagged : cls.family.isSome → cls.tag.isSome) :
    (c.addClass cls).Wired where
  tag := hc.tag
  equipped := hc.equipped
  -- the new class answers to its own name, the others to theirs
  held name k hk u hu := by
    rw [classNamed_addClass] at hk
    split at hk
    · cases hk
      exact hheld u hu
    · exact hc.held name k hk u hu
  tagged name k hk hf := by
    rw [classNamed_addClass] at hk
    split at hk
    · cases hk
      exact htagged hf
    · exact hc.tagged name k hk hf

/-- A class for an equipped tag may be put in the place of the one that held it. -/
theorem Wired.addHolder (hc : c.Wired) (ht : c.registry.Equipped t) (name : String)
    (family : Option Family) : (c.addHolder t ⟨name, family, some t⟩).Wired where
  tag u cls hu := by
    have hu : (c.holders.insert t ⟨name, family, some t⟩).get? u = some cls := hu
    rw [Table.get?_insert] at hu
    split at hu
    · next e =>
      cases hu
      exact congrArg some e.symm
    · -- any other tag keeps its holder
      exact hc.tag u cls hu
  equipped u hu := by
    obtain ⟨cls, hu⟩ := hu
    have hu : (c.holders.insert t ⟨name, family, some t⟩).get? u = some cls := hu
    rw [Table.get?_insert] at hu
    split at hu
    · next e => exact e ▸ ht
    · exact hc.equipped u ⟨cls, hu⟩
  held n k hk u hu := by
    have hk : (c.addClass ⟨name, family, some t⟩).classNamed n = .ok k := hk
    rw [classNamed_addClass] at hk
    split at hk
    · cases hk
      exact holds_addHolder u (.inl (Option.some.inj hu).symm)
    · exact holds_addHolder u (.inr (hc.held n k hk u hu))
  tagged n k hk hf := by
    have hk : (c.addClass ⟨name, family, some t⟩).classNamed n = .ok k := hk
    rw [classNamed_addClass] at hk
    split at hk
    · cases hk
      rfl
    · exact hc.tagged n k hk hf

/-- **Declarations.** What is added was checked, and the rest only grows. -/
theorem Accepted.wired (h : c.Accepted d r) (hc : c.Wired) : r.catalog.Wired := by
  have hgrows := h.grows
  cases h with
  | tag => exact ⟨hc.tag, hc.equipped, hc.held, hc.tagged⟩
  | traits | legs | direct =>
    exact ⟨hc.tag, fun u hu => hgrows.equipped u (hc.equipped u hu), hc.held, hc.tagged⟩
  | subclass hp =>
    have hheld := hc.held _ _ hp
    have htagged := hc.tagged _ _ hp
    exact hc.addClass hheld htagged
  | holder _ _ hr hlegs => exact hc.addHolder ⟨⟨_, hr⟩, hlegs⟩ _ _

end Catalog

end Attitude
