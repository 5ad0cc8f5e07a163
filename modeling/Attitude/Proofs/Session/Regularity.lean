import Attitude.Proofs.Elements.Operations
import Attitude.Proofs.Session.Objects

/-!
# Regular worlds

A world is regular if its elements are: every element has a class that computes like its encoding,
and data of the shape of that encoding, which it shares with no other element. `Change.Allowed`
lists what a step may change in such a world, and `World.Regular.apply` says that the world is
regular after any of these changes.

Elements are made with new data and given new data only. So data is never shared, and a change of an
element leaves every matrix object as it is.
-/

namespace Attitude

variable {α : Type}

/-! ## Catalogs -/

/-- The conversions and the classes are those that exist from the start. Tags may have been
declared. -/
structure Catalog.Standard (c : Catalog) : Prop where
  registry : c.registry = builtinRegistry
  classes : c.classes = Catalog.initial.classes
  holders : c.holders = Catalog.initial.holders

/-- What is found in a table from a list is in the list. -/
theorem Table.mem_of_get?_ofList {κ υ : Type} [DecidableEq κ] {xs : List (κ × υ)} {k : κ} {v : υ}
    (h : (ofList xs).get? k = some v) : (k, v) ∈ xs := by
  obtain ⟨ys, zs, hxs, -⟩ := List.lookup_eq_some_iff.1 (show xs.lookup k = some v from h)
  rw [show xs = ys ++ (k, v) :: zs from hxs]
  exact List.mem_append_right _ (List.mem_cons_self ..)

namespace Catalog

variable {c : Catalog} {cls : ElementClass}

/-- The tables at the start have the traits and rules that are built in. -/
theorem standard_initial : Standard .initial := ⟨rfl, rfl, rfl⟩

/-- A new tag leaves the rest of the tables. -/
theorem Standard.declareTag (hc : c.Standard) (name : String) (ofRotations : Bool) :
    (c.declareTag name ofRotations).Standard :=
  ⟨hc.registry, hc.classes, hc.holders⟩

/-- The classes that exist from the start compute like their encodings. -/
theorem regular_of_mem (h : cls ∈ ElementClass.base :: ElementClass.builtin) : cls.Regular := by
  simp only [ElementClass.builtin, List.mem_cons, List.not_mem_nil, or_false] at h
  obtain rfl | rfl | rfl | rfl | rfl | rfl := h
  · rintro f ⟨⟩
  all_goals
    rintro f ⟨⟩
    rfl

theorem Standard.classNamed (hc : c.Standard) {name : String} (h : c.classNamed name = .ok cls) :
    cls.Regular := by
  unfold Catalog.classNamed at h
  rw [hc.classes] at h
  split at h
  · next k hk =>
    cases h
    obtain ⟨k', hk', he⟩ := List.mem_map.1 (Table.mem_of_get?_ofList hk)
    cases he
    exact regular_of_mem hk'
  · cases h

theorem Standard.holder (hc : c.Standard) {k : Key} (h : c.holder k = .ok cls) :
    cls.Regular := by
  unfold Catalog.holder at h
  rw [hc.holders] at h
  split at h
  · split at h
    · next cls' hcls =>
      cases h
      obtain ⟨cls'', hmem, he⟩ := List.mem_filterMap.1 (Table.mem_of_get?_ofList hcls)
      obtain ⟨t, -, ht⟩ := Option.map_eq_some_iff.1 he
      cases ht
      exact regular_of_mem (List.mem_cons_of_mem _ hmem)
    · cases h
  · cases h

end Catalog

/-! ## Stores -/

/-- The element has a class that computes like its encoding and data of the shape of the encoding.
-/
structure ElementCell.Regular (s : Store α) (c : ElementCell) : Prop where
  cls : c.cls.Regular
  data : ∃ x, s.matrices[c.data.index]? = some x ∧ x.datum.shape = c.cls.family.shape

/-- A cell stays regular when a matrix is added, whatever else happens to the store. -/
theorem ElementCell.Regular.push {s t : Store α} {c : ElementCell} {x : Sheet α} (hc : c.Regular s)
    (ht : t.matrices = s.matrices.push x) : c.Regular t := by
  obtain ⟨y, hy, hshape⟩ := hc.data
  exact ⟨hc.cls, y, ht ▸ Store.getElem?_push_of_some hy, hshape⟩

variable [Ground α]

/-- Registers name elements that exist, matrices read as data of their shapes, elements are regular,
and no two of them share their data. -/
structure Store.Regular (s : Store α) : Prop where
  registers : ∀ r e, s.registers.get? r = some (.element e) → ∃ c, s.elements[e.index]? = some c
  legible : ∀ (m : Nat) (x : Sheet α), s.matrices[m]? = some x → x.datum.Legible
  elements : ∀ (i : Nat) (c : ElementCell), s.elements[i]? = some c → c.Regular s
  unshared : ∀ (i j : Nat) (c d : ElementCell), s.elements[i]? = some c →
    s.elements[j]? = some d → c.data = d.data → i = j

namespace Store

variable {s : Store α} {h : Held α} {a : Subject α}

theorem regular_empty : Store.Regular ({} : Store α) :=
  ⟨fun _ _ => nofun, fun _ _ => nofun, fun _ _ => nofun, fun _ _ _ _ => nofun⟩

namespace Regular

/-- Naming an object leaves the objects, if there is one. -/
theorem bind (hs : s.Regular) (dst : String) {x : Ref}
    (hx : ∀ e, x = .element e → ∃ c, s.elements[e.index]? = some c) : (s.bind dst x).Regular where
  registers r e hr := by
    have hr : (s.registers.insert dst x).get? r = some (.element e) := hr
    rw [Table.get?_insert] at hr
    split at hr
    · cases hr
      exact hx e rfl
    · exact hs.registers r e hr
  legible := hs.legible
  elements i c hc := ⟨(hs.elements i c hc).cls, (hs.elements i c hc).data⟩
  unshared := hs.unshared

/-- A new object that can be read leaves all of them so. -/
theorem legible_push (hs : s.Regular) {x : Sheet α} (hx : x.datum.Legible) (m : Nat) (y : Sheet α)
    (hy : (s.matrices.push x)[m]? = some y) : y.datum.Legible := by
  rw [Array.getElem?_push] at hy
  split at hy
  · cases hy
    exact hx
  · exact hs.legible m y hy

/-- The data of an element is a matrix that exists, so no element has the next one. -/
theorem data_ne_size (hs : s.Regular) {i : Nat} {c : ElementCell} (hc : s.elements[i]? = some c) :
    c.data ≠ ⟨s.matrices.size⟩ := by
  rintro he
  obtain ⟨x, hx, -⟩ := (hs.elements i c hc).data
  obtain ⟨hlt, -⟩ := Array.getElem?_eq_some_iff.1 hx
  have hindex : c.data.index = s.matrices.size := congrArg MatrixId.index he
  omega

/-- A matrix that is added is the data of no element. -/
theorem place (hs : s.Regular) (hh : h.datum.Legible) : (s.place h).2.Regular := by
  unfold Store.place
  cases h.home with
  | some m => exact hs
  | none =>
    exact ⟨hs.registers, hs.legible_push (hh.stamp s.labels),
      fun i c hc => (hs.elements i c hc).push rfl, hs.unshared⟩

/-- Naming a matrix keeps the store regular. -/
theorem bindMatrix (hs : s.Regular) (dst : String) (hh : h.datum.Legible) :
    (s.bindMatrix dst h).Regular :=
  (hs.place hh).bind dst fun _ => nofun

/-- A new element has the matrix as its data that was just added. -/
theorem bindElement (hs : s.Regular) (dst : String) {c : ConcreteClass} (hc : c.Regular)
    (hh : h.IsNew c.family.shape) : (s.bindElement dst c h).Regular := by
  rw [bindElement_of_new s dst c hh.home]
  -- the new element has its matrix at the end of the store
  have hnew : ElementCell.Regular { s with matrices := s.matrices.push (h.sheet.stamp s.labels) }
      ⟨c, ⟨s.matrices.size⟩⟩ :=
    ⟨hc, h.sheet.stamp s.labels, Array.getElem?_push_size, (hh.fits.stamp s.labels).shape⟩
  refine ⟨fun r e hr => ?_, hs.legible_push (hh.fits.legible.stamp _), fun i d hd => ?_,
    fun i j d d' hd hd' he => ?_⟩
  · rw [Table.get?_insert] at hr
    split at hr
    · cases hr
      exact ⟨_, Array.getElem?_push_size⟩
    · obtain ⟨d, hd⟩ := hs.registers r e hr
      exact ⟨d, getElem?_push_of_some hd⟩
  · rw [Array.getElem?_push] at hd
    split at hd
    · cases hd
      exact ⟨hnew.cls, hnew.data⟩
    · exact (hs.elements i d hd).push rfl
  · -- only the new element can have the new matrix
    rw [Array.getElem?_push] at hd hd'
    split at hd
    · next hi =>
      split at hd'
      · next hj => rw [hi, hj]
      · cases hd
        exact absurd he.symm (hs.data_ne_size hd')
    · split at hd'
      · cases hd'
        exact absurd he (hs.data_ne_size hd)
      · exact hs.unshared i j d d' hd hd' he

/-- An element that is given data has the matrix as its data that was just added. -/
theorem replaceData (hs : s.Regular) {e : ElementId} {c : ElementCell}
    (hc : s.elements[e.index]? = some c) (hh : h.IsNew c.cls.family.shape) :
    (s.replaceData e h).Regular := by
  rw [replaceData_of_new s e hh.home]
  have hnew : ElementCell.Regular { s with matrices := s.matrices.push (h.sheet.stamp s.labels) }
      { c with data := ⟨s.matrices.size⟩ } :=
    ⟨(hs.elements _ c hc).cls, h.sheet.stamp s.labels, Array.getElem?_push_size,
      (hh.fits.stamp s.labels).shape⟩
  -- afterwards an element is the one that was given data, or one that stays as it was
  have hcells (i : Nat) (d : ElementCell) (hd : (s.elements.modify e.index fun c =>
        { c with data := ⟨s.matrices.size⟩ })[i]? = some d) :
      (i = e.index ∧ d = { c with data := ⟨s.matrices.size⟩ }) ∨
        (i ≠ e.index ∧ s.elements[i]? = some d) := by
    rw [Array.getElem?_modify] at hd
    split at hd
    · next hi =>
      subst hi
      rw [hc] at hd
      cases hd
      exact .inl ⟨rfl, rfl⟩
    · next hi => exact .inr ⟨fun h => hi h.symm, hd⟩
  refine ⟨fun r e' hr => ?_, hs.legible_push (hh.fits.legible.stamp _), fun i d hd => ?_,
    fun i j d d' hd hd' he => ?_⟩
  · obtain ⟨d, hd⟩ := hs.registers r e' hr
    rw [Array.getElem?_modify, hd]
    split <;> exact ⟨_, rfl⟩
  · obtain ⟨-, rfl⟩ | ⟨-, hd⟩ := hcells i d hd
    · exact ⟨hnew.cls, hnew.data⟩
    · exact (hs.elements i d hd).push rfl
  · obtain ⟨rfl, rfl⟩ | ⟨-, hd⟩ := hcells i d hd
    · obtain ⟨rfl, -⟩ | ⟨-, hd'⟩ := hcells j d' hd'
      · rfl
      · exact absurd he.symm (hs.data_ne_size hd')
    · obtain ⟨rfl, rfl⟩ | ⟨-, hd'⟩ := hcells j d' hd'
      · exact absurd he (hs.data_ne_size hd)
      · exact hs.unshared i j d d' hd hd' he

/-- A matrix that keeps its shape keeps every element regular. -/
theorem overwrite (hs : s.Regular) {m : MatrixId} {y z : Sheet α}
    (hy : s.matrices[m.index]? = some y) (hz : z.datum.Fits y.datum.shape) :
    (s.overwrite m z).Regular where
  registers := hs.registers
  legible i x hx := by
    obtain rfl | hx := getElem?_overwrite hx
    · exact hz.legible.stamp s.labels
    · exact hs.legible i x hx
  elements i c hc := by
    obtain ⟨x, hx, hshape⟩ := (hs.elements i c hc).data
    refine ⟨(hs.elements i c hc).cls, ?_⟩
    show ∃ x, (s.matrices.setIfInBounds m.index (z.stamp s.labels))[c.data.index]? = some x ∧ _
    rw [Array.getElem?_setIfInBounds]
    split
    · next hm =>
      -- the data of this element is the matrix itself
      rw [← hm, hy] at hx
      cases hx
      obtain ⟨hlt, -⟩ := Array.getElem?_eq_some_iff.1 hy
      exact ⟨_, if_pos hlt, (hz.stamp s.labels).shape.trans hshape⟩
    · exact ⟨x, hx, hshape⟩
  unshared := hs.unshared

end Regular

end Store

/-! ## Changes -/

/-- The register of the element that a step gives other data. -/
def Step.target? : Step α → Option String
  | .mulInPlace a _ | .invert a | .assign _ a _ | .setData a _ | .setMatrix a _
  | .setIdentity a _ | .setRandom a _ _ _ _ => some a
  | _ => none

/-- The step gives the element other data. -/
def Step.Targets (x : Step α) (s : Store α) (e : ElementId) : Prop :=
  ∃ r, x.target? = some r ∧ s.ref r = .ok (.element e)

/-- What a step may change in a regular world. -/
inductive Change.Allowed (w : World α) (x : Step α) : Change α → Prop
  | none : Allowed w x .none
  | bind (dst : String) {e : ElementId} {c : ElementCell} (hc : w.store.cell e = .ok c) :
      Allowed w x (.bind dst (.element e))
  | bindMatrix (dst : String) {h : Held α} (hh : h.datum.Legible) :
      Allowed w x (.bindMatrix dst h)
  | bindElement (dst : String) {c : ConcreteClass} {h : Held α} (hc : c.Regular)
      (hh : h.IsNew c.family.shape) : Allowed w x (.bindElement dst c h)
  | replaceData {e : ElementId} {c : ElementCell} {h : Held α} (hx : x.Targets w.store e)
      (hc : w.store.cell e = .ok c) (hh : h.IsNew c.cls.family.shape) :
      Allowed w x (.replaceData e h)
  | assign (dst : String) {e : ElementId} {c : ElementCell} {h : Held α}
      (hx : x.Targets w.store e) (hc : w.store.cell e = .ok c)
      (hh : h.IsNew c.cls.family.shape) : Allowed w x (.assign dst e h)
  | overwrite {r : String} {p : Position} {v : α} {m : MatrixId} {y z : Sheet α}
      (hx : x = .poke r p v) (hr : w.store.ref r = .ok (.matrix m))
      (hy : w.store.sheet m = .ok y) (hz : y.setEntry p v = .ok z) :
      Allowed w x (.overwrite m z)
  | configure (change : Setting α) : Allowed w x (.configure change)
  | extend {catalog : Catalog} (event : Option Event) (hc : catalog.Standard) :
      Allowed w x (.extend catalog event)
  | drainLog : Allowed w x .drainLog

/-- The tables of conversions and classes are those that exist from the start, and the store is
regular. -/
structure World.Regular (w : World α) : Prop where
  catalog : w.catalog.Standard
  store : w.store.Regular

theorem World.regular_empty (settings : Settings α) :
    World.Regular ({ settings := settings } : World α) :=
  ⟨Catalog.standard_initial, Store.regular_empty⟩

/-- **Changes.** A world is regular after any allowed change. -/
theorem World.Regular.apply {w : World α} {x : Step α} {c : Change α} (hw : w.Regular)
    (hc : c.Allowed w x) : (w.apply c).Regular := by
  obtain ⟨hcatalog, hs⟩ := hw
  cases hc with
  | none => exact ⟨hcatalog, hs⟩
  | bind dst hcell =>
    refine ⟨hcatalog, hs.bind dst fun e he => ?_⟩
    cases he
    exact ⟨_, Store.cell_eq_ok_iff.1 hcell⟩
  | bindMatrix dst hh => exact ⟨hcatalog, hs.bindMatrix dst hh⟩
  | bindElement dst hcls hh => exact ⟨hcatalog, hs.bindElement dst hcls hh⟩
  | replaceData hx hcell hh => exact ⟨hcatalog, hs.replaceData (Store.cell_eq_ok_iff.1 hcell) hh⟩
  -- the data is replaced first, and then the register names the element
  | @assign dst e cell h hx hcell hh =>
    have hcell := Store.cell_eq_ok_iff.1 hcell
    have hreplaced := hs.replaceData hcell hh
    refine ⟨hcatalog, hreplaced.bind dst fun e' he => ?_⟩
    cases he
    rw [Store.replaceData_of_new _ _ hh.home, Array.getElem?_modify, if_pos rfl, hcell]
    exact ⟨_, rfl⟩
  -- a matrix keeps its shape whatever is poked into it
  | overwrite hx hr hy hz =>
    exact ⟨hcatalog, hs.overwrite (Store.sheet_eq_ok_iff.1 hy) ((Sheet.setEntry_fits ..).answer hz)⟩
  | configure change => exact ⟨hcatalog, hs⟩
  | extend event hstandard => exact ⟨hstandard, hs⟩
  | drainLog => exact ⟨hcatalog, hs⟩

end Attitude
