import Attitude.Proofs.Session.Outcome

/-!
# Objects after a change

A change of objects concerns one element and one register. What every other element and register
stand for is the same after the change: elements and matrices are only ever added, and the data of
an element is replaced by a new matrix. The statements are about changes with a new matrix, which
are all changes but those to data that was taken from an object.
-/

namespace Attitude.Store

variable {α : Type} {s : Store α} {e e' : ElementId} {a : Subject α} {h : Held α}

/-! ## What objects are -/

theorem cell_eq_ok_iff {c : ElementCell} : s.cell e = .ok c ↔ s.elements[e.index]? = some c := by
  unfold cell
  cases s.elements[e.index]? with
  | none => exact ⟨nofun, nofun⟩
  | some d => exact ⟨fun hc => by cases hc; rfl, fun hc => by cases hc; rfl⟩

/-- Matrix objects are found by their index. -/
theorem sheet_eq_ok_iff {m : MatrixId} {x : Sheet α} :
    s.sheet m = .ok x ↔ s.matrices[m.index]? = some x := by
  unfold sheet
  cases s.matrices[m.index]? with
  | none => exact ⟨nofun, nofun⟩
  | some y => exact ⟨fun hx => by cases hx; rfl, fun hx => by cases hx; rfl⟩

/-- The content of an element is its class and what its matrix object holds, and it knows the
object. -/
theorem subject_eq_ok_iff : s.subject e = .ok a ↔ ∃ c x, s.elements[e.index]? = some c ∧
    s.matrices[c.data.index]? = some x ∧ a = ⟨c.cls, ⟨x, some c.data⟩⟩ := by
  constructor
  · intro hs
    obtain ⟨c, hc, hs⟩ := exists_of_bind_eq_ok hs
    obtain ⟨h, hh, hs⟩ := exists_of_bind_eq_ok hs
    obtain ⟨x, hx, hh⟩ := exists_of_bind_eq_ok hh
    cases hh
    cases hs
    exact ⟨c, x, cell_eq_ok_iff.1 hc, sheet_eq_ok_iff.1 hx, rfl⟩
  · rintro ⟨c, x, hc, hx, rfl⟩
    unfold subject held
    rw [cell_eq_ok_iff.2 hc]
    show (do return ⟨c.cls, ← (do return ⟨← s.sheet c.data, some c.data⟩)⟩ :
      Except Fault (Subject α)) = _
    rw [sheet_eq_ok_iff.2 hx]
    rfl

variable [Ground α]

/-- Where a content is written over an object, every object holds this content or its own. -/
theorem getElem?_overwrite {m : MatrixId} {x z : Sheet α} {i : Nat}
    (hx : (s.overwrite m z).matrices[i]? = some x) :
    x = z.stamp s.labels ∨ s.matrices[i]? = some x := by
  have hx : (s.matrices.setIfInBounds m.index (z.stamp s.labels))[i]? = some x := hx
  rw [Array.getElem?_setIfInBounds] at hx
  split at hx
  · split at hx
    · cases hx
      exact .inl rfl
    · cases hx
  · exact .inr hx

/-! ## New elements -/

/-- Data that has no object gets a new one, at the end, with the next label. -/
theorem place_of_new (s : Store α) (hh : h.home = none) : s.place h = (⟨s.matrices.size⟩,
    { s with matrices := s.matrices.push (h.sheet.stamp s.labels), labels := s.labels + 1 }) := by
  simp only [place, hh]

/-- A matrix object stays as it is when a matrix is added. -/
theorem getElem?_push_of_some {β : Type} {xs : Array β} {i : Nat} {x y : β}
    (hx : xs[i]? = some x) : (xs.push y)[i]? = some x := by
  obtain ⟨hi, hx⟩ := Array.getElem?_eq_some_iff.1 hx
  rw [Array.getElem?_push_lt hi, hx]

/-- A new element has a new object for its data, and both are last. -/
theorem bindElement_of_new (s : Store α) (r : String) (c : ConcreteClass) (hh : h.home = none) :
    s.bindElement r c h = { s with
      matrices := s.matrices.push (h.sheet.stamp s.labels)
      elements := s.elements.push ⟨c, ⟨s.matrices.size⟩⟩
      registers := s.registers.insert r (.element ⟨s.elements.size⟩)
      labels := s.labels + 1 } := by
  simp only [bindElement, place_of_new s hh, Store.bind]

theorem subject_bindElement_self (s : Store α) (r : String) (c : ConcreteClass)
    (hh : h.home = none) : (s.bindElement r c h).subject ⟨s.elements.size⟩ =
      .ok ⟨c, ⟨h.sheet.stamp s.labels, some ⟨s.matrices.size⟩⟩⟩ := by
  rw [bindElement_of_new s r c hh]
  exact subject_eq_ok_iff.2 ⟨⟨c, ⟨s.matrices.size⟩⟩, h.sheet.stamp s.labels,
    Array.getElem?_push_size, Array.getElem?_push_size, rfl⟩

/-- The elements that exist stay as they are. -/
theorem subject_bindElement_of_ok (r : String) (c : ConcreteClass) (hh : h.home = none)
    (hs : s.subject e = .ok a) : (s.bindElement r c h).subject e = .ok a := by
  obtain ⟨d, x, hd, hx, rfl⟩ := subject_eq_ok_iff.1 hs
  rw [bindElement_of_new s r c hh]
  exact subject_eq_ok_iff.2 ⟨d, x, getElem?_push_of_some hd, getElem?_push_of_some hx, rfl⟩

/-! ## Other data for an element -/

/-- New data of an element is a new object. The old one stays for those who have it. -/
theorem replaceData_of_new (s : Store α) (e : ElementId) (hh : h.home = none) :
    s.replaceData e h = { s with
      matrices := s.matrices.push (h.sheet.stamp s.labels)
      elements := s.elements.modify e.index fun c => { c with data := ⟨s.matrices.size⟩ }
      labels := s.labels + 1 } := by
  simp only [replaceData, place_of_new s hh]

/-- The content of an element that was given new data. -/
theorem subject_replaceData_self (hh : h.home = none) (hs : s.subject e = .ok a) :
    (s.replaceData e h).subject e =
      .ok ⟨a.cls, ⟨h.sheet.stamp s.labels, some ⟨s.matrices.size⟩⟩⟩ := by
  obtain ⟨c, x, hc, hx, rfl⟩ := subject_eq_ok_iff.1 hs
  rw [replaceData_of_new s e hh]
  refine subject_eq_ok_iff.2 ⟨{ c with data := ⟨s.matrices.size⟩ }, h.sheet.stamp s.labels, ?_,
    Array.getElem?_push_size, rfl⟩
  rw [Array.getElem?_modify, if_pos rfl, hc]
  rfl

/-- The other elements stay as they are. -/
theorem subject_replaceData_of_ne (hh : h.home = none) (he : e' ≠ e) (hs : s.subject e' = .ok a) :
    (s.replaceData e h).subject e' = .ok a := by
  obtain ⟨c, x, hc, hx, rfl⟩ := subject_eq_ok_iff.1 hs
  have hindex : e.index ≠ e'.index := fun hi => he (congrArg ElementId.mk hi).symm
  rw [replaceData_of_new s e hh]
  refine subject_eq_ok_iff.2 ⟨c, x, ?_, getElem?_push_of_some hx, rfl⟩
  rw [Array.getElem?_modify, if_neg hindex, hc]

end Attitude.Store
