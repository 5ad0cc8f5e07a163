import Attitude.Proofs.Elements.Entries
import Attitude.Proofs.Scalar.Doubles
import Attitude.Proofs.Session.Planning

/-!
# Who owns a matrix

Every element has a data matrix of its own. A step that changes an element gives it another matrix,
which is new, so the matrix that was its data before keeps its content, and whoever took it out of
the element sees no change. The one step that changes the content of a matrix is a poke, and it
shows in the registers that name the matrix or the element that owns it, and nowhere else.

`Session.ownership_of_run` says so of every state of a run. It comes from the list of allowed
changes: each of them but an overwritten matrix keeps all matrices (`Change.Allowed.keepsMatrices`)
and all elements but the one that the step names (`Change.Allowed.keepsElements`).
-/

namespace Attitude

open Asking

variable {α : Type} {s t : Store α}

namespace Store

/-- No two elements have one matrix as their data. -/
def Unshared (s : Store α) : Prop :=
  ∀ e e' c c', s.cell e = .ok c → s.cell e' = .ok c' → c.data = c'.data → e = e'

/-- Every matrix keeps its content. -/
def KeepsMatrices (s t : Store α) : Prop :=
  ∀ m x, s.sheet m = .ok x → t.sheet m = .ok x

/-- The element keeps its class and has another matrix as its data, which did not exist. -/
def Renews (s t : Store α) (e : ElementId) : Prop :=
  ∃ c m, s.cell e = .ok c ∧ s.sheet m = .error .unknownName ∧ t.cell e = .ok { c with data := m }

/-- The register names the matrix, or the element that has it as its data. -/
def Shows (s : Store α) (q : String) (m : MatrixId) : Prop :=
  s.ref q = .ok (.matrix m) ∨
    ∃ e c, s.ref q = .ok (.element e) ∧ s.cell e = .ok c ∧ c.data = m

/-! ## Added matrices -/

/-- A new object is put at the end, and the others keep their index. -/
theorem keepsMatrices_of_push {x : Sheet α} (ht : t.matrices = s.matrices.push x) :
    s.KeepsMatrices t := by
  intro m y hy
  rw [sheet_eq_ok_iff] at hy ⊢
  rw [ht]
  exact getElem?_push_of_some hy

/-- The index of the next object is not in use. -/
theorem sheet_size (s : Store α) : s.sheet ⟨s.matrices.size⟩ = .error .unknownName := by
  unfold Store.sheet
  rw [Array.getElem?_eq_none (Nat.le_refl _)]

/-- A register of an element shows its data. -/
theorem dataOf_of_element {q : String} {e : ElementId} (hq : s.ref q = .ok (.element e)) :
    s.dataOf q = (s.subject e).map Subject.held := by
  unfold Store.dataOf
  rw [hq]
  show (do return (← s.subject e).held) = _
  cases s.subject e <;> rfl

/-- The content of an element is what its object holds. -/
theorem subject_of_cell {e : ElementId} {c : ElementCell} (hc : s.cell e = .ok c) :
    s.subject e = (s.held c.data).map (Subject.mk c.cls) := by
  unfold Store.subject
  rw [hc]
  show (do return ⟨c.cls, ← s.held c.data⟩ : Except Fault (Subject α)) = _
  cases s.held c.data <;> rfl

/-- The matrix of a register that shows `m` is `m`. -/
theorem dataOf_of_shows {q : String} {m : MatrixId} (hq : s.Shows q m) : s.dataOf q = s.held m := by
  obtain hq | ⟨e, c, hq, hc, rfl⟩ := hq
  · unfold Store.dataOf
    rw [hq]
    rfl
  · rw [dataOf_of_element hq, subject_of_cell hc]
    cases s.held c.data <;> rfl

variable [Ground α] {h : Held α}

/-- In a regular store no two elements have one object. -/
theorem Regular.isUnshared (hs : s.Regular) : s.Unshared := by
  intro e e' c c' hc hc' hdata
  have hindex : e.index = e'.index :=
    hs.unshared _ _ c c' (cell_eq_ok_iff.1 hc) (cell_eq_ok_iff.1 hc') hdata
  exact congrArg ElementId.mk hindex

/-- Placing data leaves the objects that there are. -/
theorem keepsMatrices_place (s : Store α) (h : Held α) : s.KeepsMatrices (s.place h).2 := by
  unfold Store.place
  cases h.home with
  | some m => exact fun _ _ => id
  | none => exact keepsMatrices_of_push rfl

theorem cell_place (s : Store α) (h : Held α) (e : ElementId) :
    (s.place h).2.cell e = s.cell e := by
  unfold Store.place
  cases h.home <;> rfl

/-! ## Elements after a change -/

/-- A new element leaves the elements that there are. -/
theorem cell_bindElement_of_ok {e : ElementId} {c : ElementCell} (dst : String)
    (cls : ConcreteClass) (hh : h.home = none) (hc : s.cell e = .ok c) :
    (s.bindElement dst cls h).cell e = .ok c := by
  rw [bindElement_of_new s dst cls hh]
  exact cell_eq_ok_iff.2 (getElem?_push_of_some (cell_eq_ok_iff.1 hc))

/-- New data for one element leaves the other ones. -/
theorem cell_replaceData_of_ne {e e' : ElementId} {c : ElementCell} (hh : h.home = none)
    (hne : e' ≠ e) (hc : s.cell e' = .ok c) : (s.replaceData e h).cell e' = .ok c := by
  have hindex : e.index ≠ e'.index := fun he => hne (congrArg ElementId.mk he).symm
  rw [replaceData_of_new s e hh]
  refine cell_eq_ok_iff.2 ?_
  rw [Array.getElem?_modify, if_neg hindex]
  exact cell_eq_ok_iff.1 hc

/-- New data for an element is an object of its own. -/
theorem renews_replaceData {e : ElementId} {c : ElementCell} (hh : h.home = none)
    (hc : s.cell e = .ok c) : s.Renews (s.replaceData e h) e := by
  refine ⟨c, ⟨s.matrices.size⟩, hc, s.sheet_size, ?_⟩
  rw [replaceData_of_new s e hh]
  refine cell_eq_ok_iff.2 ?_
  rw [Array.getElem?_modify, if_pos rfl, cell_eq_ok_iff.1 hc]
  rfl

end Store

/-! ## Changes -/

namespace Change.Allowed

variable [Ground α] {w : World α} {x : Step α} {c : Change α}

/-- No change but a poke writes into an object. -/
theorem keepsMatrices (hc : c.Allowed w x) (hx : ∀ r p v, x ≠ .poke r p v) :
    w.store.KeepsMatrices (w.apply c).store := by
  cases hc with
  | bindMatrix dst hh => exact w.store.keepsMatrices_place _
  | @bindElement dst cls h hcls hh =>
    have hpush := Store.bindElement_of_new w.store dst cls hh.home
    exact Store.keepsMatrices_of_push (congrArg Store.matrices hpush)
  | @replaceData e cell h he hcell hh =>
    have hpush := Store.replaceData_of_new w.store e hh.home
    exact Store.keepsMatrices_of_push (congrArg Store.matrices hpush)
  | @assign dst e cell h he hcell hh =>
    have hpush := Store.replaceData_of_new w.store e hh.home
    exact Store.keepsMatrices_of_push (congrArg Store.matrices hpush)
  | overwrite hpoke => exact absurd hpoke (hx _ _ _)
  | _ => exact fun _ _ => id

/-- A change leaves the elements that it is not about. -/
theorem keepsElements (hc : c.Allowed w x) {e : ElementId} {cell : ElementCell}
    (he : ¬ x.Targets w.store e) (hcell : w.store.cell e = .ok cell) :
    (w.apply c).store.cell e = .ok cell := by
  cases hc with
  | bindMatrix dst hh => exact (w.store.cell_place _ e).trans hcell
  | bindElement dst hcls hh => exact Store.cell_bindElement_of_ok dst _ hh.home hcell
  | replaceData hx _ hh =>
    exact Store.cell_replaceData_of_ne hh.home (fun heq => he (heq ▸ hx)) hcell
  | assign dst hx _ hh =>
    exact Store.cell_replaceData_of_ne hh.home (fun heq => he (heq ▸ hx)) hcell
  | _ => exact hcell

end Change.Allowed

/-- The change gives the element other data. -/
inductive Change.Gives (e : ElementId) : Change α → Prop
  | replaceData (h : Held α) : Gives e (.replaceData e h)
  | assign (dst : String) (h : Held α) : Gives e (.assign dst e h)

section Ground

variable [Ground α] {w : World α} {x : Step α} {c : Change α} {e : ElementId}

/-- A change that gives data to an element gives it a new object. -/
theorem Change.Allowed.renews (hc : c.Allowed w x) (he : c.Gives e) :
    w.store.Renews (w.apply c).store e := by
  cases he with
  | replaceData h =>
    cases hc with
    | replaceData _ hcell hh => exact Store.renews_replaceData hh.home hcell
  | assign dst h =>
    cases hc with
    | assign _ _ hcell hh => exact Store.renews_replaceData hh.home hcell

namespace World

/-- A step that names an element to change plans to give it other data. -/
theorem plan_gives (hx : x.Targets w.store e) :
    Ensures w.catalog.registry (fun p => p.change.Gives e) (w.plan x) := by
  obtain ⟨r, hr, he⟩ := hx
  -- the element that these steps look up first is the one of their register
  have href : Ensures w.catalog.registry (fun y => y = .element e) (liftM (w.store.ref r)) :=
    .lift fun y hy => by rw [he] at hy; cases hy; rfl
  have hid : Ensures w.catalog.registry (fun y => y = e) (liftM (w.store.elementId r)) :=
    .lift fun y hy => by rw [Store.elementId_of_ref he] at hy; cases hy; rfl
  cases x with
  | mulInPlace a x =>
    cases hr
    refine .bind_of href fun y hy => ?_
    subst hy
    exact .read fun _ => .read fun _ => .bind (w.context.mul_asks _ _) fun _ =>
      .pure (.replaceData _)
  | invert a =>
    cases hr
    exact .bind_of hid fun y hy => hy ▸ .read fun _ => .read fun _ => .pure (.replaceData _)
  | assign dst a b =>
    cases hr
    exact .bind_of hid fun y hy => hy ▸ .read fun _ => .read fun _ =>
      .bind (w.context.convert_asks _ _ _) fun _ => .pure (.assign dst _)
  | setData a x =>
    cases hr
    exact .bind_of hid fun y hy => hy ▸ .read fun _ => .read fun _ => .read fun _ =>
      .pure (.replaceData _)
  | setMatrix a x =>
    cases hr
    exact .bind_of hid fun y hy => hy ▸ .read fun _ => .read fun _ => .read fun _ =>
      .pure (.replaceData _)
  | setIdentity a type =>
    cases hr
    exact .bind_of hid fun y hy => hy ▸ .read fun _ => .pure (.replaceData _)
  | setRandom a x y z t =>
    cases hr
    exact .bind_of hid fun y hy => hy ▸ .read fun _ => .read fun _ => .read fun _ =>
      .pure (.replaceData _)
  | _ => cases hr

/-- A poke plans to overwrite the matrix that its register names. -/
theorem plan_poke (r : String) (p : Position) (v : α) :
    Ensures w.catalog.registry (fun q => ∃ m y z, w.store.ref r = .ok (.matrix m) ∧
      w.store.sheet m = .ok y ∧ y.setEntry p v = .ok z ∧ q.change = .overwrite m z)
      (w.plan (.poke r p v)) := by
  refine .bind_of (.lift fun _ => id) fun o ho => ?_
  cases o with
  | element e => exact .throw _
  | matrix m =>
    exact .bind_of (.lift fun _ => id) fun y hy => .bind_of (.lift fun _ => id) fun z hz =>
      .pure ⟨m, y, z, ho, hy, hz, rfl⟩

end World

/-! ## An overwritten matrix -/

namespace Store

variable {m : MatrixId} {y z : Sheet α}

/-- What was written is read, under a new label. -/
theorem sheet_overwrite_self (hy : s.sheet m = .ok y) (z : Sheet α) :
    (s.overwrite m z).sheet m = .ok (z.stamp s.labels) := by
  obtain ⟨hlt, -⟩ := Array.getElem?_eq_some_iff.1 (sheet_eq_ok_iff.1 hy)
  refine sheet_eq_ok_iff.2 ?_
  show (s.matrices.setIfInBounds m.index (z.stamp s.labels))[m.index]? = _
  rw [Array.getElem?_setIfInBounds, if_pos rfl, if_pos hlt]

theorem sheet_overwrite_of_ne {n : MatrixId} (hn : n ≠ m) (z : Sheet α) :
    (s.overwrite m z).sheet n = s.sheet n := by
  have hindex : m.index ≠ n.index := fun h => hn (congrArg MatrixId.mk h).symm
  simp only [Store.sheet, Store.overwrite, Array.getElem?_setIfInBounds, if_neg hindex]

/-- The other objects hold what they held. -/
theorem held_overwrite_of_ne {n : MatrixId} (hn : n ≠ m) (z : Sheet α) :
    (s.overwrite m z).held n = s.held n := by
  unfold Store.held
  rw [sheet_overwrite_of_ne hn z]

/-- **A poke shows** in the registers that show the matrix. -/
theorem dataOf_overwrite_of_shows {q : String} (hy : s.sheet m = .ok y) (z : Sheet α)
    (hq : s.Shows q m) : (s.overwrite m z).dataOf q = .ok ⟨z.stamp s.labels, some m⟩ := by
  have hq : (s.overwrite m z).Shows q m := hq
  rw [dataOf_of_shows hq]
  unfold Store.held
  rw [sheet_overwrite_self hy z]
  rfl

/-- And nowhere else. -/
theorem dataOf_overwrite_of_not_shows {q : String} (z : Sheet α) (hq : ¬ s.Shows q m) :
    (s.overwrite m z).dataOf q = s.dataOf q := by
  have href : (s.overwrite m z).ref q = s.ref q := rfl
  cases hr : s.ref q with
  | error e =>
    unfold Store.dataOf
    rw [href, hr]
    rfl
  | ok x =>
    cases x with
    | matrix n =>
      -- the register would show the matrix if it named it
      have hn : n ≠ m := fun h => hq (.inl (h ▸ hr))
      unfold Store.dataOf
      rw [href, hr]
      exact held_overwrite_of_ne hn z
    | element e =>
      rw [dataOf_of_element (href.trans hr), dataOf_of_element hr]
      have hcell : (s.overwrite m z).cell e = s.cell e := rfl
      cases hc : s.cell e with
      | error e =>
        unfold Store.subject
        rw [hcell, hc]
        rfl
      | ok c =>
        -- and so it would if its element held it
        have hdata : c.data ≠ m := fun h => hq (.inr ⟨e, c, hr, hc, h⟩)
        rw [subject_of_cell (hcell.trans hc), subject_of_cell hc, held_overwrite_of_ne hdata z]

end Store

end Ground

namespace Session

/-! ## Steps -/

variable [Ground α] {s : Session α} {x : Step α}

theorem store_of_error {e : Fault} (he : (s.step x).1 = .error e) :
    (s.step x).2.world.store = s.world.store :=
  congrArg World.store (world_of_error he)

/-- A step that succeeds makes a change that it plans. -/
theorem world_of_ok {P : Plan α → Prop}
    (hP : Ensures s.world.catalog.registry P (s.world.plan x)) {a : Answer α}
    (ha : (s.step x).1 = .ok a) : ∃ p, P p ∧ (s.step x).2.world = s.world.apply p.change := by
  obtain ⟨-, hplanned⟩ := hP s.router
  obtain ⟨e, r, -, hstep⟩ | ⟨p, r, hplan, hstep⟩ := s.step_cases x
  · rw [hstep] at ha
    cases ha
  · rw [hplan] at hplanned
    exact ⟨p, hplanned p rfl, by rw [hstep]⟩

/-- A poke that succeeds overwrites the matrix that its register names. -/
theorem store_of_poke {r : String} {p : Position} {v : α} {a : Answer α}
    (ha : (s.step (.poke r p v)).1 = .ok a) : ∃ m y z, s.world.store.ref r = .ok (.matrix m) ∧
      s.world.store.sheet m = .ok y ∧ y.setEntry p v = .ok z ∧
      (s.step (.poke r p v)).2.world.store = s.world.store.overwrite m z := by
  obtain ⟨q, ⟨m, y, z, hr, hy, hz, hq⟩, hw⟩ := world_of_ok (World.plan_poke r p v) ha
  rw [hq] at hw
  exact ⟨m, y, z, hr, hy, hz, congrArg World.store hw⟩

variable [LawfulDifferences α]

/-- A step that succeeds leaves the store of a change that is allowed and that it plans. -/
theorem Regular.store_of_ok (hs : s.Regular) (hx : x.KeepsTables) {P : Plan α → Prop}
    (hP : Ensures s.world.catalog.registry P (s.world.plan x)) {a : Answer α}
    (ha : (s.step x).1 = .ok a) : ∃ p, P p ∧ p.change.Allowed s.world x ∧
      (s.step x).2.world.store = (s.world.apply p.change).store := by
  obtain ⟨p, hp, hallowed, hw⟩ := hs.step_of_ok hx hP ha
  exact ⟨p, hp, hallowed, congrArg World.store hw⟩

/-- **Step.** No step but a poke writes into an object. -/
theorem Regular.keepsMatrices (hs : s.Regular) (hx : x.KeepsTables)
    (hpoke : ∀ r p v, x ≠ .poke r p v) : s.world.store.KeepsMatrices (s.step x).2.world.store := by
  cases h : (s.step x).1 with
  | error e =>
    rw [store_of_error h]
    exact fun _ _ => id
  | ok a =>
    obtain ⟨p, -, hallowed, ht⟩ := hs.store_of_ok hx (s.world.plan_asks x) h
    rw [ht]
    exact hallowed.keepsMatrices hpoke

/-- **Step.** A step leaves the elements that it is not about, with the objects of their data. -/
theorem Regular.keepsElements (hs : s.Regular) (hx : x.KeepsTables) {e : ElementId}
    {c : ElementCell} (he : ¬ x.Targets s.world.store e) (hc : s.world.store.cell e = .ok c) :
    (s.step x).2.world.store.cell e = .ok c := by
  cases h : (s.step x).1 with
  | error e =>
    rw [store_of_error h]
    exact hc
  | ok a =>
    obtain ⟨p, -, hallowed, ht⟩ := hs.store_of_ok hx (s.world.plan_asks x) h
    rw [ht]
    exact hallowed.keepsElements he hc

/-- **Step.** A step that answers gives the element it is about a new object for its data. -/
theorem Regular.renews (hs : s.Regular) (hx : x.KeepsTables) {e : ElementId} {a : Answer α}
    (he : x.Targets s.world.store e) (ha : (s.step x).1 = .ok a) :
    s.world.store.Renews (s.step x).2.world.store e := by
  obtain ⟨p, hgives, hallowed, ht⟩ := hs.store_of_ok hx (World.plan_gives he) ha
  rw [ht]
  exact hallowed.renews hgives

/-! ## Runs -/

/-- **Ownership.** In every state of a run no two elements share their data. Whatever step comes
next, unless it is a poke, every matrix keeps its content, and every element its data but the one
that the step names to change; that one has a new matrix as its data if the step succeeds, and the
old one if it fails. A poke that succeeds replaces one entry of one matrix, the one at its position.
It shows in the registers that name the matrix or the element that owns it, and nowhere else. -/
theorem ownership_of_run (settings : Settings α) (xs : List (Step α))
    (hxs : ∀ x ∈ xs, x.KeepsTables) (x : Step α) (hx : x.KeepsTables) :
    let s := ((⟨{ settings := settings }, {}⟩ : Session α).run xs).2
    let t := (s.step x).2.world.store
    s.world.store.Unshared ∧
    (∀ e, (s.step x).1 = .error e → t = s.world.store) ∧
    ((∀ r p v, x ≠ .poke r p v) →
      s.world.store.KeepsMatrices t ∧
      (∀ e c, ¬ x.Targets s.world.store e → s.world.store.cell e = .ok c → t.cell e = .ok c) ∧
      ∀ e a, x.Targets s.world.store e → (s.step x).1 = .ok a → s.world.store.Renews t e) ∧
    ∀ r p v a, x = .poke r p v → (s.step x).1 = .ok a → ∃ m y z l i j,
      s.world.store.ref r = .ok (.matrix m) ∧ s.world.store.sheet m = .ok y ∧
      y.setEntry p v = .ok z ∧ p.Names y.datum.rows y.datum.cols i j ∧
      y.Replaced (z.stamp l) i j v ∧ t.elements = s.world.store.elements ∧
      (∀ n, n ≠ m → t.sheet n = s.world.store.sheet n) ∧
      ∀ q, t.ref q = s.world.store.ref q ∧
        (s.world.store.Shows q m → t.dataOf q = .ok ⟨z.stamp l, some m⟩) ∧
        (¬ s.world.store.Shows q m → t.dataOf q = s.world.store.dataOf q) := by
  intro s t
  have hs : s.Regular := regular_run settings xs hxs
  refine ⟨hs.world.store.isUnshared, fun _ => store_of_error, fun hpoke =>
    ⟨hs.keepsMatrices hx hpoke, fun _ _ => hs.keepsElements hx, fun _ _ => hs.renews hx⟩, ?_⟩
  rintro r p v a rfl ha
  obtain ⟨m, y, z, hr, hy, hz, ht⟩ := store_of_poke ha
  -- a poke overwrites one matrix, and nothing else in the store
  have ht : t = s.world.store.overwrite m z := ht
  obtain ⟨i, j, hnames, hreplaced⟩ := Sheet.exists_replaced_of_setEntry hz
  refine ⟨m, y, z, s.world.store.labels, i, j, hr, hy, hz, hnames, hreplaced.stamp _, ?_,
    fun n hn => ?_, fun q => ⟨?_, fun hq => ?_, fun hq => ?_⟩⟩
  · rw [ht]
    rfl
  · rw [ht]
    exact Store.sheet_overwrite_of_ne hn z
  · rw [ht]
    rfl
  · rw [ht]
    exact Store.dataOf_overwrite_of_shows hy z hq
  · rw [ht]
    exact Store.dataOf_overwrite_of_not_shows z hq

/-- The data of an element is taken out of it. -/
def takenRun : List (Step Float) := [.new "a" "Mrp" none, .getData "m" "a"]

/-- The element is inverted and the matrix keeps its content; the matrix is poked and the element
changes with it, in the one entry. -/
theorem taken_matrix_after_invert : (∀ x ∈ takenRun, x.KeepsTables) ∧
    (Step.invert "a" : Step Float).KeepsTables ∧
    (initial.run takenRun).2.world.store.Shows "m" ⟨0⟩ ∧
    (initial.run takenRun).2.world.store.Shows "a" ⟨0⟩ ∧
    (initial.run takenRun).2.world.store.KeepsMatrices
      ((initial.run takenRun).2.step (.invert "a")).2.world.store ∧
    (initial.run takenRun).2.world.store.Renews
      ((initial.run takenRun).2.step (.invert "a")).2.world.store ⟨0⟩ ∧
    (Step.poke "m" (.linear (-1)) 1 : Step Float).KeepsTables ∧
    ∃ y z : Sheet Float, (initial.run takenRun).2.world.store.sheet ⟨0⟩ = .ok y ∧
      y.Replaced z 2 0 1 ∧
      ((initial.run takenRun).2.step (.poke "m" (.linear (-1)) 1)).2.world.store.dataOf "a" =
        .ok ⟨z, some ⟨0⟩⟩ := by
  have hxs : ∀ x ∈ takenRun, x.KeepsTables := by
    simp only [takenRun, List.forall_mem_cons]
    exact ⟨trivial, trivial, List.forall_mem_nil _⟩
  -- the element is inverted in place
  have htargets : (Step.invert "a").Targets (initial.run takenRun).2.world.store ⟨0⟩ :=
    ⟨"a", rfl, rfl⟩
  -- the register of its matrix still shows it
  have howner : (initial.run takenRun).2.world.store.Shows "a" ⟨0⟩ :=
    .inr ⟨⟨0⟩, _, rfl, rfl, rfl⟩
  have h := ownership_of_run (Settings.initial : Settings Float) takenRun hxs (.invert "a") trivial
  obtain ⟨hkeeps, -, hrenews⟩ := h.2.2.1 nofun
  have hpoke := ownership_of_run (Settings.initial : Settings Float) takenRun hxs
    (.poke "m" (.linear (-1)) 1) trivial
  obtain ⟨m, y, z, l, i, j, hm, hy, -, hnames, hreplaced, -, -, hshown⟩ :=
    hpoke.2.2.2 "m" (.linear (-1)) 1 _ rfl rfl
  cases hm
  have hrows : y.datum.rows = 3 ∧ y.datum.cols = 1 := by cases hy; exact ⟨rfl, rfl⟩
  rw [hrows.1, hrows.2] at hnames
  -- an index counts back from the end of the column
  obtain ⟨rfl, rfl⟩ : i = 2 ∧ j = 0 := by
    cases hnames with
    | linear hi hj hk => omega
  exact ⟨hxs, trivial, .inl rfl, howner, hkeeps, hrenews _ _ htargets rfl, trivial, y, z.stamp l,
    hy, hreplaced, (hshown "a").2.1 howner⟩

end Session

end Attitude
