import Attitude.Proofs.Elements.Agreement
import Attitude.Proofs.Session.Runs

/-!
# Symbols stand for their numbers throughout a run

A step is instantiated by putting numbers in the place of symbols in its arguments. The run of
instantiated steps and the run of the steps themselves fail at the same places with the same faults,
and after them the registers hold the same matrices, if the symbols of the one run are evaluated at
the numbers of the other.

Two stores agree if they have the same objects with the same names, and matrices that agree object
by object. This is what carries the argument through changes in place and through several names for
one object: `World.plan_same` compares what two worlds that agree plan, `World.Agree.apply` says
that they agree afterwards, and `Session.values_of_instantiated_run` puts steps together to runs.
-/

namespace Attitude

variable {α : Type} [Ground α] {σ τ : String → α}

/-! ## Instantiation -/

/-- The argument with numbers in the place of symbols. -/
def Argument.instantiate (σ : String → α) : Argument α → Argument α
  | .symbols x => .data (x.map (Grid.map (Expr.eval id σ)))
  | x => x

/-- The step with numbers in the place of symbols. -/
def Step.instantiate (σ : String → α) : Step α → Step α
  | .new dst cls x => .new dst cls (x.map (Argument.instantiate σ))
  | .exp dst cls x => .exp dst cls (x.instantiate σ)
  | .mul dst a x => .mul dst a (x.instantiate σ)
  | .mulInPlace a x => .mulInPlace a (x.instantiate σ)
  | .setData a x => .setData a (x.instantiate σ)
  | .setMatrix a x => .setMatrix a (x.instantiate σ)
  | .hat dst x => .hat dst (x.instantiate σ)
  | .vee dst x => .vee dst (x.instantiate σ)
  | .convert dst x source target => .convert dst (x.instantiate σ) source target
  | .toCanonical dst x tag => .toCanonical dst (x.instantiate σ) tag
  | .fromCanonical dst x tag => .fromCanonical dst (x.instantiate σ) tag
  | x => x

/-- The step makes or changes objects and does not ask whether data consists of numbers, as a cast
and a comparison do. -/
def Step.Computes : Step α → Prop
  | .cast _ _ _ | .ask _ | .declare _ | .configure _ | .drainLog => False
  | _ => True

/-! ## Stores that agree -/

/-- The same objects with the same names, and matrices that agree. -/
structure Store.Agree (σ τ : String → α) (s t : Store α) : Prop where
  size : s.matrices.size = t.matrices.size
  sheets : ∀ m, SameOutcome (Sheet.Agree σ τ) (s.sheet m) (t.sheet m)
  elements : s.elements = t.elements
  registers : s.registers = t.registers

namespace Store

variable {s t : Store α}

/-- A register names the same object in both stores, or nothing in both. -/
theorem ref_same (h : Agree σ τ s t) (r : String) : SameOutcome Eq (s.ref r) (t.ref r) := by
  simp only [ref, h.registers]
  exact .refl _

/-- An object holds data that agrees, and is looked up in both stores or in neither. -/
theorem held_same (h : Agree σ τ s t) (m : MatrixId) :
    SameOutcome (Held.Agree σ τ) (s.held m) (t.held m) :=
  .bind (h.sheets m) fun _ _ hx => .ok ⟨hx, rfl⟩

/-- An element has the same class in both stores, with data that agrees. -/
theorem subject_same (h : Agree σ τ s t) (e : ElementId) :
    SameOutcome (Subject.Agree σ τ) (s.subject e) (t.subject e) := by
  simp only [subject, cell, h.elements]
  exact .bind_same fun c => .bind (held_same h c.data) fun _ _ hk => .ok (.of _ hk)

/-- A register names the same element in both stores. -/
theorem elementId_same (h : Agree σ τ s t) (r : String) :
    SameOutcome Eq (s.elementId r) (t.elementId r) :=
  .bind (ref_same h r) fun _ _ hx => hx ▸ .refl _

/-- An element found by its register agrees with the one under the same register. -/
theorem named_same (h : Agree σ τ s t) (r : String) :
    SameOutcome (Subject.Agree σ τ) (s.named r) (t.named r) :=
  .bind (elementId_same h r) fun e _ he => he ▸ subject_same h e

/-- The rule for a step that looks up the element of a register: it goes on with one object of one
class, and with data that agrees. -/
theorem Agree.read_element (h : Agree σ τ s t) (r : String) {β γ : Type} {R : β → γ → Prop}
    {f : ElementId → Subject α → Asking β} {g : ElementId → Subject α → Asking γ}
    (hfg : ∀ e c k l, Held.Agree σ τ k l → Asking.Same R (f e ⟨c, k⟩) (g e ⟨c, l⟩)) :
    Asking.Same R
      (do
        let e ← s.elementId r
        f e (← s.subject e))
      (do
        let e ← t.elementId r
        g e (← t.subject e)) := by
  refine .read (elementId_same h r) fun e _ he => ?_
  subst he
  refine .read (subject_same h e) ?_
  rintro _ _ ⟨c, hk⟩
  exact hfg e c _ _ hk

/-- What a register shows, an element's data or a matrix, agrees. -/
theorem dataOf_same (h : Agree σ τ s t) (r : String) :
    SameOutcome (Held.Agree σ τ) (s.dataOf r) (t.dataOf r) := by
  refine .bind (ref_same h r) fun x _ hx => ?_
  subst hx
  cases x with
  | element e => exact .bind (subject_same h e) fun _ _ ha => .ok ha.held
  | matrix m => exact held_same h m

/-- Binding a register to the same object in both stores leaves the data alone. -/
theorem Agree.bind (h : Agree σ τ s t) (r : String) (x : Ref) :
    Agree σ τ (s.bind r x) (t.bind r x) where
  size := h.size
  sheets := h.sheets
  elements := h.elements
  registers := congrArg (fun table => table.insert r x) h.registers

/-- Stores that agree on matrices still do when both are given the same elements. -/
theorem Agree.withElements (h : Agree σ τ s t) (xs : Array ElementCell) :
    Agree σ τ { s with elements := xs } { t with elements := xs } :=
  ⟨h.size, h.sheets, rfl, h.registers⟩

/-- Agreement of sheets as agreement of what the arrays hold. -/
theorem sheet_same_of_getElem? {s t : Store α} {m : MatrixId}
    (h : Option.Rel (Sheet.Agree σ τ) s.matrices[m.index]? t.matrices[m.index]?) :
    SameOutcome (Sheet.Agree σ τ) (s.sheet m) (t.sheet m) := by
  unfold sheet
  generalize s.matrices[m.index]? = x at h
  generalize t.matrices[m.index]? = y at h
  cases h with
  | some h => exact .ok h
  | none => exact .error _

/-- Index by index, the matrix objects agree. Neither store has one that the other has not. -/
theorem getElem?_same (h : Agree σ τ s t) (i : Nat) :
    Option.Rel (Sheet.Agree σ τ) s.matrices[i]? t.matrices[i]? := by
  -- a matrix is there in both stores or in neither
  have hi := h.sheets ⟨i⟩
  unfold sheet at hi
  cases hx : s.matrices[i]? with
  | none =>
    cases hy : t.matrices[i]? with
    | none => exact .none
    | some y => simp only [hx, hy] at hi; cases hi
  | some x =>
    cases hy : t.matrices[i]? with
    | none => simp only [hx, hy] at hi; cases hi
    | some y =>
      simp only [hx, hy] at hi
      cases hi with
      | ok hxy => exact .some hxy

/-- Data that agrees gets the same object in both stores: the one it had, or a new one, and the
stores have equally many so far. -/
theorem Agree.place (h : Agree σ τ s t) {k k' : Held α} (hk : Held.Agree σ τ k k') :
    (s.place k).1 = (t.place k').1 ∧ Agree σ τ (s.place k).2 (t.place k').2 := by
  unfold Store.place
  rw [hk.home]
  cases k'.home with
  | some m => exact ⟨rfl, h⟩
  | none =>
    refine ⟨congrArg MatrixId.mk h.size, ?_, fun m => sheet_same_of_getElem? ?_, h.elements,
      h.registers⟩
    · simp only [Array.size_push, h.size]
    · simp only [Array.getElem?_push, h.size]
      split
      · exact .some (hk.sheet.stamp _ _)
      · exact getElem?_same h _

/-- Naming a matrix keeps the agreement. -/
theorem Agree.bindMatrix (h : Agree σ τ s t) (r : String) {k k' : Held α}
    (hk : Held.Agree σ τ k k') : Agree σ τ (s.bindMatrix r k) (t.bindMatrix r k') := by
  obtain ⟨hm, hs⟩ := h.place hk
  unfold Store.bindMatrix
  simp only [hm]
  exact hs.bind r _

/-- Naming a new element keeps the agreement. Only its data depends on the numbers. -/
theorem Agree.bindElement (h : Agree σ τ s t) (r : String) (c : ConcreteClass) {k k' : Held α}
    (hk : Held.Agree σ τ k k') : Agree σ τ (s.bindElement r c k) (t.bindElement r c k') := by
  obtain ⟨hm, hs⟩ := h.place hk
  unfold Store.bindElement
  simp only [hm, hs.elements]
  exact (hs.withElements _).bind r _

/-- New data for an element keeps the agreement. -/
theorem Agree.replaceData (h : Agree σ τ s t) (e : ElementId) {k k' : Held α}
    (hk : Held.Agree σ τ k k') : Agree σ τ (s.replaceData e k) (t.replaceData e k') := by
  obtain ⟨hm, hs⟩ := h.place hk
  unfold Store.replaceData
  simp only [hm, hs.elements]
  exact hs.withElements _

/-- Writing into an object keeps the agreement, at this object by what is written, at the others as
before. -/
theorem Agree.overwrite (h : Agree σ τ s t) (m : MatrixId) {x y : Sheet α}
    (hxy : Sheet.Agree σ τ x y) : Agree σ τ (s.overwrite m x) (t.overwrite m y) where
  size := by simp only [Store.overwrite, Array.size_setIfInBounds, h.size]
  sheets m' := by
    refine sheet_same_of_getElem? ?_
    simp only [Store.overwrite, Array.getElem?_setIfInBounds, h.size]
    split
    · split
      · exact .some (hxy.stamp _ _)
      · exact .none
    · exact getElem?_same h _
  elements := h.elements
  registers := h.registers

end Store

/-! ## Worlds that agree -/

/-- The same settings without checks, the same catalog, and stores that agree. -/
structure World.Agree (σ τ : String → α) (v w : World α) : Prop where
  store : Store.Agree σ τ v.store w.store
  settings : v.settings = w.settings
  catalog : v.catalog = w.catalog
  unchecked : w.settings.checks = false

namespace World

variable {v w : World α}

/-- Settings and tables are equal, so operations run in the same context. -/
theorem Agree.context (h : Agree σ τ v w) : v.context = w.context := by
  simp only [World.context, h.settings, h.catalog]

/-- An argument as a matrix. Instantiation turns a literal of expressions into one of numbers, and
it leaves the other kinds as they are. -/
theorem matrixOf_same (h : Agree σ τ v w) (x : Argument α) :
    SameOutcome (Held.Agree σ τ) (v.matrixOf x) (w.matrixOf (x.instantiate σ)) := by
  cases x with
  | data x => exact .map (.refl x) fun _ _ hm => .fresh hm
  | gap m => exact .ok (.fresh rfl)
  | symbols x =>
    cases x with
    | error e => exact .error e
    | ok m => exact .ok (.fresh rfl)
  | register r =>
    refine .bind (Store.ref_same h.store r) fun y _ hy => ?_
    subst hy
    cases y with
    | matrix m => exact Store.held_same h.store m
    | element e => exact .error _

/-- Whether an argument is an element does not depend on the numbers. -/
theorem elementOf?_same (h : Agree σ τ v w) (x : Argument α) :
    SameOutcome (Option.Rel (Subject.Agree σ τ)) (v.elementOf? x)
      (w.elementOf? (x.instantiate σ)) := by
  cases x with
  | register r =>
    refine .bind (Store.ref_same h.store r) fun y _ hy => ?_
    subst hy
    cases y with
    | element e => exact .bind (Store.subject_same h.store e) fun _ _ ha => .ok (.some ha)
    | matrix m => exact .ok .none
  | _ => exact .ok .none

/-- An operand that has to be an element is one in both worlds, or is refused in both. -/
theorem operand_same (h : Agree σ τ v w) (x : Argument α) :
    SameOutcome (Subject.Agree σ τ) (v.operand x) (w.operand (x.instantiate σ)) := by
  refine .bind (elementOf?_same h x) fun a b hab => ?_
  cases hab with
  | some hab => exact .ok hab
  | none => exact .error _

theorem matrixOf?_same (h : Agree σ τ v w) (x : Argument α) :
    SameOutcome (Option.Rel (Held.Agree σ τ)) (v.matrixOf? x)
      (w.matrixOf? (x.instantiate σ)) := by
  -- what cannot be read is no data, on both sides
  have hread : SameOutcome (Option.Rel (Held.Agree σ τ)) (.ok (v.matrixOf x).toOption)
      (.ok (w.matrixOf (x.instantiate σ)).toOption) := by
    have hx := matrixOf_same h x
    generalize v.matrixOf x = y at hx
    generalize w.matrixOf (x.instantiate σ) = z at hx
    cases hx with
    | ok hk => exact .ok (.some hk)
    | error e => exact .ok .none
  cases x with
  | data x => exact hread
  | gap m => exact .ok .none
  | symbols x => exact hread
  | register r =>
    refine .bind (Store.ref_same h.store r) fun y _ hy => ?_
    subst hy
    cases y with
    | matrix m => exact .bind (Store.held_same h.store m) fun _ _ hk => .ok (.some hk)
    | element e => exact .ok .none

/-- The entrywise product of a matrix object and an argument, with equal faults of shape. -/
theorem entrywiseProduct_same (h : Agree σ τ v w) (m : MatrixId) (x : Argument α) :
    SameOutcome (Held.Agree σ τ) (v.entrywiseProduct m x)
      (w.entrywiseProduct m (x.instantiate σ)) := by
  refine .bind (h.store.sheets m) fun _ _ hx => .bind (matrixOf?_same h x) fun a b hab => ?_
  cases hab with
  | some hk => exact .bind (Sheet.entrywiseProduct_same hx hk.sheet) fun _ _ hy => .ok ⟨hy, rfl⟩
  | none => exact .error _

/-- The identity data has the same numbers in either scalar type. -/
theorem identity_agree (f : Family) (t u : ScalarType) :
    Held.Agree σ τ (f.identity t) (f.identity u) := by
  cases f <;> exact ⟨⟨by simp [Family.identity, Held.fresh], rfl⟩, rfl⟩

/-- The data of a new element, from whatever argument. -/
theorem makeData_same (h : Agree σ τ v w) (c : ConcreteClass) (x : Option (Argument α)) :
    Asking.Same (Held.Agree σ τ) (v.makeData c x)
      (w.makeData c (x.map (Argument.instantiate σ))) := by
  unfold makeData
  rw [h.context]
  cases x with
  | none => exact .pure (identity_agree _ _ _)
  | some x =>
    cases x with
    | gap m => exact .pure (identity_agree _ _ _)
    -- an element is copied, anything else is taken as data
    | _ =>
      refine .read (elementOf?_same h _) fun a b hab => ?_
      cases hab with
      | some hab => exact Context.dataFor_same h.unchecked hab c
      | none =>
        exact .read (matrixOf_same h _) fun _ _ hk =>
          .lift (Context.takeData_same h.unchecked c hk)

end World

/-! ## Plans -/

/-- The same change of objects, with matrices that agree. -/
inductive Change.Agree (σ τ : String → α) : Change α → Change α → Prop
  | bind (dst : String) (x : Ref) : Agree σ τ (.bind dst x) (.bind dst x)
  | bindMatrix (dst : String) {h k : Held α} (hk : Held.Agree σ τ h k) :
      Agree σ τ (.bindMatrix dst h) (.bindMatrix dst k)
  | bindElement (dst : String) (c : ConcreteClass) {h k : Held α} (hk : Held.Agree σ τ h k) :
      Agree σ τ (.bindElement dst c h) (.bindElement dst c k)
  | replaceData (e : ElementId) {h k : Held α} (hk : Held.Agree σ τ h k) :
      Agree σ τ (.replaceData e h) (.replaceData e k)
  | assign (dst : String) (e : ElementId) {h k : Held α} (hk : Held.Agree σ τ h k) :
      Agree σ τ (.assign dst e h) (.assign dst e k)
  | overwrite (m : MatrixId) {x y : Sheet α} (hxy : Sheet.Agree σ τ x y) :
      Agree σ τ (.overwrite m x) (.overwrite m y)

/-- Plans of the same change. -/
abbrev Plan.Agree (σ τ : String → α) (p q : Plan α) : Prop := Change.Agree σ τ p.change q.change

namespace World

variable {v w : World α}

/-- **Plans.** Worlds that agree plan changes that agree, or refuse with the same fault. -/
theorem plan_same (h : Agree σ τ v w) {x : Step α} (hx : x.Computes) :
    Asking.Same (Plan.Agree σ τ) (v.plan x) (w.plan (x.instantiate σ)) := by
  -- checks look at numbers only, so they have to be off
  have hs : v.context.settings.checks = false := by
    rw [show v.context.settings = w.settings from h.settings]
    exact h.unchecked
  have hctx := h.context
  cases x with
  | new dst cls x =>
    simp only [plan, Step.instantiate, h.catalog]
    exact .read_same fun _ => .read_same fun c =>
      .bind (makeData_same h c x) fun _ _ hk => .pure (.bindElement dst c hk)
  | identity dst cls type =>
    simp only [plan, Step.instantiate, h.catalog]
    exact .read_same fun _ => .read_same fun c => .pure (.bindElement dst c (identity_agree _ _ _))
  | random dst cls x y z t =>
    simp only [plan, Step.instantiate, h.catalog, ← hctx]
    exact .read_same fun _ => .read_same fun c => .read_same fun q =>
      .read (Context.takeDraw_same hs c q) fun _ _ hk => .pure (.bindElement dst c hk)
  | exp dst cls x =>
    simp only [plan, Step.instantiate, h.catalog, ← hctx]
    exact .read_same fun c => .read (matrixOf_same h x) fun _ _ hk =>
      .bind (Context.exp_same hs c hk) fun p q hpq => by
        obtain ⟨c, k⟩ := p
        obtain ⟨c', k'⟩ := q
        obtain ⟨rfl, hk'⟩ : c = c' ∧ _ := hpq
        exact .pure (.bindElement dst c hk')
  | log dst a =>
    simp only [plan, Step.instantiate, ← hctx]
    refine .read (Store.ref_same h.store a) fun y _ hy => ?_
    subst hy
    cases y with
    | element e =>
      exact .read (Store.subject_same h.store e) fun _ _ ha =>
        .bind (Context.coordinates_same hs ha _) fun _ _ hk => .pure (.bindMatrix dst hk)
    | matrix m =>
      exact .read (h.store.sheets m) fun _ _ hy =>
        .read (Datum.apply_same natural_logarithm hy.value) fun _ _ hd =>
          .pure (.bindMatrix dst (.fresh hd))
  | rotationMatrix dst a =>
    simp only [plan, Step.instantiate, ← hctx]
    exact .read (Store.named_same h.store a) fun _ _ ha =>
      .read (Context.rotationMatrix_same hs ha) fun _ _ hk => .pure (.bindMatrix dst hk)
  | angle dst a =>
    exact .read (Store.named_same h.store a) fun _ _ ha =>
      .read (Context.angle_same ha) fun _ _ hk => .pure (.bindMatrix dst hk)
  | shadow dst a =>
    simp only [plan, Step.instantiate, ← hctx]
    exact .read (Store.named_same h.store a) fun _ _ ha =>
      .read (Context.shadow_same hs ha) fun _ _ hk => .pure (.bindMatrix dst hk)
  | coordinates dst a encoding =>
    simp only [plan, Step.instantiate, ← hctx, h.catalog]
    exact .read (Store.named_same h.store a) fun _ _ ha =>
      .bind (Context.coordinates_same hs ha _) fun _ _ hk => .pure (.bindMatrix dst hk)
  | getData dst a =>
    exact .read (Store.named_same h.store a) fun _ _ ha => .pure (.bindMatrix dst ha.held)
  | mul dst a x =>
    simp only [plan, Step.instantiate, ← hctx]
    refine .read (Store.ref_same h.store a) fun y _ hy => ?_
    subst hy
    cases y with
    | element e =>
      refine .read (Store.subject_same h.store e) ?_
      rintro _ _ ⟨c, hk⟩
      exact .read (operand_same h x) fun _ _ hb =>
        .bind (Context.dataFor_same hs (.of c hk) _) fun _ _ hcopy =>
          .bind (Context.mul_same hs (.of c hcopy) hb) fun _ _ hk' => .pure (.bindElement dst c hk')
    | matrix m =>
      exact .read (entrywiseProduct_same h m x) fun _ _ hk => .pure (.bindMatrix dst hk)
  | mulInPlace a x =>
    simp only [plan, Step.instantiate, ← hctx]
    refine .read (Store.ref_same h.store a) fun y _ hy => ?_
    subst hy
    cases y with
    | element e =>
      refine .read (Store.subject_same h.store e) ?_
      rintro _ _ ⟨c, hk⟩
      exact .read (operand_same h x) fun _ _ hb =>
        .bind (Context.mul_same hs (.of c hk) hb) fun _ _ hk' => .pure (.replaceData e hk')
    | matrix m =>
      exact .read (entrywiseProduct_same h m x) fun _ _ hk => .pure (.bindMatrix a hk)
  | invert a =>
    simp only [plan, Step.instantiate, ← hctx]
    exact h.store.read_element a fun e c _ _ hk =>
      .read (Context.inv_same hs (.of c hk)) fun _ _ hk => .pure (.replaceData e hk)
  | inverse dst a =>
    simp only [plan, Step.instantiate, ← hctx]
    refine .read (Store.named_same h.store a) ?_
    rintro _ _ ⟨c, hk⟩
    exact .bind (Context.dataFor_same hs (.of c hk) _) fun _ _ hcopy =>
      .read (Context.inv_same hs (.of c hcopy)) fun _ _ hk' => .pure (.bindElement dst c hk')
  | canonical dst a =>
    simp only [plan, Step.instantiate, ← hctx, h.catalog]
    refine h.store.read_element a fun e c _ _ hk => .read_same fun b => ?_
    cases b with
    | true => exact .pure (.bind dst (.element e))
    | false =>
      refine .read_same fun ⟨_, traits⟩ => .read_same fun cls => .read_same fun d => ?_
      exact .bind (Context.dataFor_same hs (.of c hk) _) fun _ _ hk' =>
        .pure (.bindElement dst d hk')
  | assign dst a b =>
    simp only [plan, Step.instantiate, ← hctx]
    exact h.store.read_element a fun e c _ _ _ => .read (Store.named_same h.store b) fun _ _ hb =>
      .bind (Context.dataFor_same hs hb c) fun _ _ hk => .pure (.assign dst e hk)
  | setData a x =>
    simp only [plan, Step.instantiate, ← hctx]
    exact h.store.read_element a fun e c _ _ _ => .read (matrixOf_same h x) fun _ _ hx =>
      .read (Context.takeData_same hs c hx) fun _ _ hk => .pure (.replaceData e hk)
  | setMatrix a x =>
    simp only [plan, Step.instantiate, ← hctx]
    exact h.store.read_element a fun e c _ _ _ => .read (matrixOf_same h x) fun _ _ hx =>
      .read (Context.takeMatrix_same hs c hx) fun _ _ hk => .pure (.replaceData e hk)
  | setIdentity a type =>
    simp only [plan, Step.instantiate]
    exact h.store.read_element a fun e c _ _ _ => .pure (.replaceData e (identity_agree _ _ _))
  | setRandom a x y z t =>
    simp only [plan, Step.instantiate, ← hctx]
    exact h.store.read_element a fun e c _ _ _ => .read_same fun q =>
      .read (Context.takeDraw_same hs c q) fun _ _ hk => .pure (.replaceData e hk)
  -- the same entry of matrices that agree
  | poke m p x =>
    simp only [plan, Step.instantiate]
    refine .read (Store.ref_same h.store m) fun y _ hy => ?_
    subst hy
    cases y with
    | matrix m =>
      exact .read (h.store.sheets m) fun _ _ hy =>
        .read (Sheet.setEntry_same hy p x) fun _ _ hz => .pure (.overwrite m hz)
    | element e => exact .throw _
  | hat dst x =>
    simp only [plan, Step.instantiate]
    rw [← h.settings]
    exact .read (matrixOf_same h x) fun _ _ hx =>
      .read (Settings.applyFormula_same hs _ hx) fun _ _ hk => .pure (.bindMatrix dst hk)
  | vee dst x =>
    simp only [plan, Step.instantiate]
    rw [← h.settings]
    exact .read (matrixOf_same h x) fun _ _ hx =>
      .read (Settings.applyFormula_same hs _ hx) fun _ _ hk => .pure (.bindMatrix dst hk)
  | convert dst x source target =>
    simp only [plan, Step.instantiate, ← hctx, h.catalog]
    exact .read (matrixOf_same h x) fun _ _ hx =>
      .bind (Context.convert_same hs hx _ _) fun _ _ hk => .pure (.bindMatrix dst hk)
  | toCanonical dst x tag =>
    simp only [plan, Step.instantiate, ← hctx, h.catalog]
    exact .read (matrixOf_same h x) fun _ _ hx =>
      .read (Context.toCanonical_same hs hx _) fun _ _ hk => .pure (.bindMatrix dst hk)
  | fromCanonical dst x tag =>
    simp only [plan, Step.instantiate, ← hctx, h.catalog]
    exact .read (matrixOf_same h x) fun _ _ hx =>
      .read (Context.fromCanonical_same hs hx _) fun _ _ hk => .pure (.bindMatrix dst hk)
  -- steps that look at the type of the data are left out
  | cast | ask | declare | configure | drainLog => exact hx.elim

/-- Changes that agree keep the agreement of the worlds. -/
theorem Agree.apply (h : Agree σ τ v w) {c d : Change α} (hcd : Change.Agree σ τ c d) :
    Agree σ τ (v.apply c) (w.apply d) := by
  refine ⟨?_, ?_, ?_, ?_⟩
  · cases hcd with
    | bind dst x => exact h.store.bind dst x
    | bindMatrix dst hk => exact h.store.bindMatrix dst hk
    | bindElement dst c hk => exact h.store.bindElement dst c hk
    | replaceData e hk => exact h.store.replaceData e hk
    | assign dst e hk => exact (h.store.replaceData e hk).bind dst _
    | overwrite m hxy => exact h.store.overwrite m hxy
  · cases hcd <;> exact h.settings
  · cases hcd <;> exact h.catalog
  · cases hcd <;> exact h.unchecked

end World

/-! ## Runs -/

namespace Session

/-- Worlds that agree, and one router. -/
structure Agree (σ τ : String → α) (s t : Session α) : Prop where
  world : World.Agree σ τ s.world t.world
  router : s.router = t.router

/-- The fault of a step, if it failed. -/
def fault? : Except Fault (Answer α) → Option Fault
  | .ok _ => none
  | .error e => some e

/-- **Step.** A step and its instance fail alike, and lead from sessions that agree to sessions that
agree. Equal requests keep the routers equal. -/
theorem step_same {s t : Session α} (h : Agree σ τ s t) {x : Step α} (hx : x.Computes) :
    fault? (t.step (x.instantiate σ)).1 = fault? (s.step x).1 ∧
      Agree σ τ (s.step x).2 (t.step (x.instantiate σ)).2 := by
  obtain ⟨hplan, hrouter⟩ := World.plan_same h.world hx s.router
  unfold step
  rw [← h.router]
  rcases hs : (s.world.plan x).run s.router with ⟨p, r⟩
  rcases ht : (t.world.plan (x.instantiate σ)).run s.router with ⟨q, r'⟩
  rw [hs, ht] at hplan hrouter
  obtain rfl : r = r' := hrouter
  obtain @⟨p, q, hpq⟩ | ⟨e⟩ := hplan
  · refine ⟨rfl, h.world.apply hpq, ?_⟩
    -- no change of objects concerns the router
    obtain ⟨c, a⟩ := p
    obtain ⟨d, b⟩ := q
    cases hpq <;> rfl
  · exact ⟨rfl, h.world, rfl⟩

/-- **Run.** A run and its instance fail at the same steps, and end in sessions that agree. -/
theorem run_same {s t : Session α} (h : Agree σ τ s t) {xs : List (Step α)}
    (hxs : ∀ x ∈ xs, x.Computes) :
    (t.run (xs.map (Step.instantiate σ))).1.map fault? = (s.run xs).1.map fault? ∧
      Agree σ τ (s.run xs).2 (t.run (xs.map (Step.instantiate σ))).2 := by
  induction xs generalizing s t with
  | nil => exact ⟨rfl, h⟩
  | cons x xs ih =>
    obtain ⟨hx, hxs⟩ := List.forall_mem_cons.1 hxs
    obtain ⟨hfault, hagree⟩ := step_same h hx
    obtain ⟨hfaults, hagree⟩ := ih hagree hxs
    exact ⟨List.cons_eq_cons.2 ⟨hfault, hfaults⟩, hagree⟩

/-- The state before the first step, with the given tables and with checks of data off. -/
def unchecked (settings : Settings α) (catalog : Catalog) : Session α :=
  ⟨{ settings := { settings with checks := false }, catalog := catalog }, {}⟩

/-- The agreement before the first step: there is no data yet. -/
theorem agree_unchecked (settings : Settings α) (catalog : Catalog) :
    Agree σ τ (unchecked settings catalog) (unchecked settings catalog) :=
  ⟨⟨⟨rfl, fun _ => .error _, rfl, rfl⟩, rfl, rfl, rfl⟩, rfl⟩

/-- **Symbolic runs are numeric runs.** With checks off, a run whose arguments may have symbols in
them and the run with numbers in their place fail at the same steps with the same faults. After
them every register has a matrix in both or in none. The value of the one, where `σ` gives the
symbols their numbers, is the value of the other one, whatever symbols would stand for there. -/
theorem values_of_instantiated_run (settings : Settings α) (catalog : Catalog) (σ : String → α)
    (xs : List (Step α)) (hxs : ∀ x ∈ xs, x.Computes) :
    let s := (unchecked settings catalog).run xs
    let t := (unchecked settings catalog).run (xs.map (Step.instantiate σ))
    t.1.map fault? = s.1.map fault? ∧
      ∀ r τ, (t.2.world.store.dataOf r).map (fun h => h.datum.value τ) =
        (s.2.world.store.dataOf r).map (fun h => h.datum.value σ) := by
  refine ⟨(run_same (agree_unchecked (τ := σ) settings catalog) hxs).1, fun r τ => ?_⟩
  have hagree := (run_same (agree_unchecked (σ := σ) (τ := τ) settings catalog) hxs).2
  have h := Store.dataOf_same hagree.world.store r
  exact (SameOutcome.map_eq (h.mono fun _ _ hk => hk.value)).symm

/-- Symbolic parameters outside of the unit ball or inside, which only the assignment decides, are
multiplied in place with themselves, and the product is written as a quaternion. The last step
fails, because a matrix has no inverse. -/
def squareOfSymbols : List (Step Float) :=
  [.new "a" "Mrp" (some (.symbols (.ok (Grid.column [.var "x", .var "y", .var "z"])))),
   .mulInPlace "a" (.register "a"),
   .coordinates "q" "a" "QuaternionRep",
   .invert "q"]

/-- The assignment of a half to every symbol. -/
def halves : String → Float := fun _ => 1 / 2

/-- The square of a rotation by symbols, and the same program with numbers for the symbols. A step
fails in it, and the runs go on alike. -/
theorem values_of_squareOfSymbols :
    (∀ x ∈ squareOfSymbols, x.Computes) ∧
      ((unchecked .initial .initial).run squareOfSymbols).1.map fault? =
        [none, none, none, some .noOperation] ∧
      ∀ τ, (((unchecked .initial .initial).run
          (squareOfSymbols.map (Step.instantiate halves))).2.world.store.dataOf "q").map
            (fun h => h.datum.value τ) =
        (((unchecked .initial .initial).run squareOfSymbols).2.world.store.dataOf "q").map
          (fun h => h.datum.value halves) := by
  have hxs : ∀ x ∈ squareOfSymbols, x.Computes := by
    simp [squareOfSymbols, Step.Computes]
  exact ⟨hxs, rfl, fun τ =>
    (values_of_instantiated_run .initial .initial halves squareOfSymbols hxs).2 "q" τ⟩

end Session

end Attitude
