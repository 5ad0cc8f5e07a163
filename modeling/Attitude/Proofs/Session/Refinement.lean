import Attitude.Proofs.Elements.Rotations
import Attitude.Proofs.Session.Objects
import Attitude.Proofs.Session.RotationStore
import Attitude.Proofs.Session.Runs

/-!
# Sessions of rotations are runs of a plain store

A session that makes elements of the three exact encodings and applies group operations does to
their rotations what a plain store does to its matrices. `World.Refines` relates a world to a plain
store: the same objects under the same names, where the data of an element encodes the rotation of
its object. It says nothing of which data that is, so signs of quaternions and shadow sets are left
open, and changes in place and shared objects are those of the plain store.

`World.Refines.plan` compares one step, part by part, and `Session.run_refines` a whole run. On the
way nothing but the catalog of the start is asked, so the router always answers what the registry
resolves.
-/

namespace Attitude

variable {σ : String → ℝ} {s : Settings ℝ} {w : World ℝ} {p : RotationStore} {k : Encoding}
  {h : Held ℝ} {R : Mat3 ℝ}

/-- The same objects with the same names, where the data of every element encodes the rotation of
its object. -/
structure World.Refines (σ : String → ℝ) (s : Settings ℝ) (w : World ℝ) (p : RotationStore) :
    Prop where
  catalog : w.catalog = .initial
  settings : w.settings = s
  size : w.store.elements.size = p.objects.size
  registers : ∀ r, w.store.registers.get? r = (p.registers.get? r).map fun i => .element ⟨i⟩
  objects : ∀ i x, p.objects[i]? = some x → ∃ a, w.store.subject ⟨i⟩ = .ok a ∧ a.Holds σ x

namespace World.Refines

/-- Before the first step there is nothing on either side. -/
theorem empty (s : Settings ℝ) : Refines σ s { settings := s } {} where
  catalog := rfl
  settings := rfl
  size := rfl
  registers _ := rfl
  objects _ _ := nofun

/-! ## Reading -/

/-- The content of an element on both sides. -/
theorem subject (hp : Refines σ s w p) (i : Nat) :
    SameOutcome (Subject.Holds σ) (w.store.subject ⟨i⟩) (p.content i) := by
  unfold RotationStore.content
  cases hx : p.objects[i]? with
  | some x =>
    obtain ⟨a, ha, hholds⟩ := hp.objects i x hx
    rw [ha]
    exact .ok hholds
  | none =>
    -- there is no element of that number either
    have hi : w.store.elements[i]? = none := by
      rw [Array.getElem?_eq_none_iff] at hx ⊢
      exact hp.size ▸ hx
    unfold Store.subject Store.cell
    rw [hi]
    exact .error _

/-- Registers name the same objects, which are all elements here. -/
theorem ref (hp : Refines σ s w p) (r : String) :
    SameOutcome (fun x i => x = .element ⟨i⟩) (w.store.ref r) (p.object r) := by
  unfold Store.ref RotationStore.object
  rw [hp.registers r]
  cases p.registers.get? r with
  | none => exact .error _
  | some i => exact .ok rfl

theorem elementId (hp : Refines σ s w p) (r : String) :
    SameOutcome (fun e i => e = ⟨i⟩) (w.store.elementId r) (p.object r) := by
  have hr := hp.ref r
  unfold Store.elementId
  generalize w.store.ref r = x at hr
  generalize p.object r = y at hr
  cases hr with
  | ok hx =>
    subst hx
    exact .ok rfl
  | error e => exact .error e

/-- Named elements have the encoding and hold the rotation that the plain store says. -/
theorem named (hp : Refines σ s w p) (r : String) :
    SameOutcome (Subject.Holds σ) (w.store.named r) (p.named r) :=
  .bind (hp.elementId r) fun _ i he => he ▸ hp.subject i

/-- Named elements hold the rotation that the plain store says. -/
theorem value (hp : Refines σ s w p) (r : String) :
    SameOutcome (fun a R => ∃ k, Subject.Holds σ a (k, R)) (w.store.named r) (p.value r) := by
  have hr := hp.named r
  unfold RotationStore.value
  generalize w.store.named r = x at hr
  generalize p.named r = y at hr
  cases hr with
  | ok ha => exact .ok ⟨_, ha⟩
  | error e => exact .error e

/-! ## Writing -/

theorem registers_insert {t : Table String Ref} {u : Table String Nat}
    (htu : ∀ r, t.get? r = (u.get? r).map fun i => .element ⟨i⟩) (dst : String) (i : Nat)
    (r : String) : (t.insert dst (.element ⟨i⟩)).get? r =
      ((u.insert dst i).get? r).map fun i => .element ⟨i⟩ := by
  rw [Table.get?_insert, Table.get?_insert]
  by_cases hr : r = dst
  · rw [if_pos hr, if_pos hr]
    rfl
  · rw [if_neg hr, if_neg hr, htu r]

theorem bind (hp : Refines σ s w p) (dst : String) (i : Nat) :
    Refines σ s (w.apply (.bind dst (.element ⟨i⟩))) (p.bind dst i) where
  catalog := hp.catalog
  settings := hp.settings
  size := hp.size
  registers := registers_insert hp.registers dst i
  objects := hp.objects

/-- What an element holds in its new matrix object. -/
theorem holds_stamp (hh : Held.Holds σ k h R) (l : Nat) (o : Option MatrixId) :
    Subject.Holds σ ⟨k.cls, ⟨h.sheet.stamp l, o⟩⟩ (k, R) :=
  .of k <| by
    show k.Encodes ((h.datum.stamp l).value σ) R
    rw [Datum.value_stamp]
    exact hh.encodes

/-- A new object, which is last on both sides. -/
theorem create (hp : Refines σ s w p) (dst : String) (hh : Held.Holds σ k h R) :
    Refines σ s (w.apply (.bindElement dst k.cls h)) (p.create dst k R) where
  catalog := hp.catalog
  settings := hp.settings
  size := by
    show (w.store.bindElement dst k.cls h).elements.size = (p.objects.push (k, R)).size
    rw [Store.bindElement_of_new _ _ _ hh.home, Array.size_push, Array.size_push, hp.size]
  registers r := by
    show (w.store.bindElement dst k.cls h).registers.get? r = _
    rw [Store.bindElement_of_new _ _ _ hh.home, hp.size]
    exact registers_insert hp.registers dst _ r
  objects i x hx := by
    show ∃ a, (w.store.bindElement dst k.cls h).subject ⟨i⟩ = .ok a ∧ _
    change (p.objects.push (k, R))[i]? = some x at hx
    rw [Array.getElem?_push] at hx
    by_cases hi : i = p.objects.size
    · rw [if_pos hi] at hx
      cases hx
      rw [hi, ← hp.size]
      exact ⟨_, Store.subject_bindElement_self _ _ _ hh.home, holds_stamp hh _ _⟩
    · -- the other objects are older and stay as they are
      rw [if_neg hi] at hx
      obtain ⟨a, ha, hholds⟩ := hp.objects i x hx
      exact ⟨a, Store.subject_bindElement_of_ok dst _ hh.home ha, hholds⟩

/-- New data for an object. All names of the object see it. -/
theorem put (hp : Refines σ s w p) {i : Nat} {A : Mat3 ℝ} (hi : p.content i = .ok (k, A))
    (hh : Held.Holds σ k h R) :
    Refines σ s (w.apply (.replaceData ⟨i⟩ h)) (p.put i k R) where
  catalog := hp.catalog
  settings := hp.settings
  size := by
    show (w.store.replaceData ⟨i⟩ h).elements.size = (p.objects.setIfInBounds i (k, R)).size
    rw [Store.replaceData_of_new _ _ hh.home, Array.size_modify, Array.size_setIfInBounds, hp.size]
  registers r := by
    show (w.store.replaceData ⟨i⟩ h).registers.get? r = _
    rw [Store.replaceData_of_new _ _ hh.home]
    exact hp.registers r
  objects j x hx := by
    show ∃ a, (w.store.replaceData ⟨i⟩ h).subject ⟨j⟩ = .ok a ∧ _
    change (p.objects.setIfInBounds i (k, R))[j]? = some x at hx
    rw [Array.getElem?_setIfInBounds] at hx
    by_cases hij : i = j
    · subst hij
      have hi := RotationStore.content_eq_ok_iff.1 hi
      -- the object exists, so its element does and keeps its class
      obtain ⟨hlt, -⟩ := Array.getElem?_eq_some_iff.1 hi
      rw [if_pos rfl, if_pos hlt] at hx
      cases hx
      obtain ⟨a, ha, hholds⟩ := hp.objects i (k, A) hi
      have hcls : a.cls = k.cls := by
        cases hholds
        rfl
      rw [Store.subject_replaceData_self hh.home ha, hcls]
      exact ⟨_, rfl, holds_stamp hh _ _⟩
    · rw [if_neg hij] at hx
      obtain ⟨a, ha, hholds⟩ := hp.objects j x hx
      exact ⟨a, Store.subject_replaceData_of_ne hh.home
        (fun he => hij (congrArg ElementId.index he).symm) ha, hholds⟩

/-! ## Plans -/

/-- The tables are those that are built in. -/
theorem registry (hp : Refines σ s w p) : w.context.registry = Catalog.builtinRegistry := by
  show w.catalog.registry = _
  rw [hp.catalog]
  rfl

/-- The rule for a step that looks up the element of a register: both sides go on with one object,
in one encoding. -/
theorem read_element (hp : Refines σ s w p) (a : String) {β γ : Type} {S : β → γ → Prop}
    {f : ElementId → Subject ℝ → Asking β} {g : Nat → Encoding × Mat3 ℝ → Except Fault γ}
    (hfg : ∀ i k h A, p.content i = .ok (k, A) → k.Encodes (h.datum.value σ) A →
      Asking.Follows w.context.registry S (f ⟨i⟩ ⟨k.cls, h⟩) (g i (k, A))) :
    Asking.Follows w.context.registry S
      (do
        let e ← w.store.elementId a
        f e (← w.store.subject e))
      (do
        let i ← p.object a
        g i (← p.content i)) := by
  refine .read (hp.elementId a) fun e i he => ?_
  subst he
  refine .read (hp.subject i).with_answer ?_
  rintro _ _ ⟨⟨k, hA⟩, hi⟩
  exact hfg i k _ _ hi hA

/-- An argument that is a register is an element. -/
theorem elementOf (hp : Refines σ s w p) (r : String) :
    SameOutcome (fun o x => ∃ a, o = some a ∧ Subject.Holds σ a x) (w.elementOf? (.register r))
      (p.named r) := by
  refine .bind (hp.ref r) fun x i hx => ?_
  subst hx
  exact (hp.subject i).map_left fun a x ha => ⟨a, rfl, ha⟩

/-- Operands hold the rotation that the plain store says. -/
theorem operand (hp : Refines σ s w p) (x : Argument ℝ) :
    SameOutcome (fun b B => ∃ k, Subject.Holds σ b (k, B)) (w.operand x) (p.operand x) := by
  cases x with
  | register r =>
    refine .bind (hp.elementOf r) ?_
    rintro _ ⟨k, B⟩ ⟨b, rfl, hb⟩
    exact .ok ⟨k, hb⟩
  | data _ => exact .error _
  | gap _ => exact .error _
  | symbols _ => exact .error _

/-- The class of an encoding is found by its name. -/
theorem bind_class (hp : Refines σ s w p) (k : Encoding) {β γ : Type} {S : β → γ → Prop}
    {f : ConcreteClass → Asking β} {y : Except Fault γ}
    (hf : Asking.Follows w.context.registry S (f k.cls) y) :
    Asking.Follows w.context.registry S
      (do let c ← (← w.catalog.classNamed k.name).concrete; f c) y := by
  have hnamed : w.catalog.classNamed k.name = .ok ⟨k.name, some k.family, some k.tag⟩ := by
    rw [hp.catalog]
    cases k <;> rfl
  refine .bind_ok (.lift (.of_eq hnamed)) ?_
  rintro _ rfl
  exact .bind_ok (.lift (.refl (.ok k.cls))) fun _ hc => hc ▸ hf

/-- The identity data holds the identity. -/
theorem holds_identity (k : Encoding) (t : ScalarType) :
    Held.Holds σ k (k.family.identity t) 1 :=
  ⟨by cases k <;> rfl, k.encodes_identity t σ⟩

/-- The data that an element is made with: a literal rotation, or that of another element. -/
theorem makeData (hp : Refines σ s w p) {x : Option (Argument ℝ)}
    (hx : ∀ y ∈ x, y.RotationOf k) :
    Asking.Follows w.context.registry (Held.Holds σ k) (w.makeData k.cls x)
      (p.made s.refuses k x) := by
  cases x with
  | none => exact .pure (holds_identity k _)
  | some x =>
    cases x with
    | gap m => exact .pure (holds_identity k _)
    | register r =>
      refine .read (hp.elementOf r) ?_
      rintro _ ⟨j, A⟩ ⟨a, rfl, ha⟩
      exact Context.dataFor_holds hp.registry ha k
    | data x =>
      cases x with
      | error e => exact .lift (.error e)
      | ok m =>
        -- new data has to be the data of some rotation, which is then what is stored
        obtain ⟨R, hR⟩ := hx (.data (.ok m)) rfl m rfl
        have htake := Context.takeData_holds (σ := σ) hp.registry hR
        rw [show w.context.settings = s from hp.settings] at htake
        show Asking.Follows _ _ _ (do
          let R ← k.rotation m
          if s.refuses then .error (.notRotation k.name) else .ok R)
        rw [hR.rotation_eq]
        exact .lift htake
    | symbols x => exact (hx (.symbols x) rfl).elim

/-- A copy in the canonical encoding. -/
theorem matrixCopy (hp : Refines σ s w p) (dst : String) {a : Subject ℝ} {A : Mat3 ℝ}
    (ha : Subject.Holds σ a (k, A)) :
    Asking.Follows w.context.registry (fun q p' => Refines σ s (w.apply q.change) p')
      (do
        let h ← w.context.dataFor Encoding.matrix.cls a
        return Plan.newElement dst Encoding.matrix.cls h)
      (.ok (p.create dst .matrix A)) :=
  .bind_ok (Context.dataFor_holds hp.registry ha .matrix) fun _ hh => .pure (hp.create dst hh)

/-- **Plans.** The world plans what the plain store does, or both refuse with the same fault. -/
theorem plan (hp : Refines σ s w p) (heps : 0 ≤ s.eps) {x : Step ℝ} (hx : x.Rotates) :
    Asking.Follows w.context.registry (fun q p' => Refines σ s (w.apply q.change) p') (w.plan x)
      (p.step s.refuses x) := by
  have hreg := hp.registry
  have heps' : 0 ≤ w.context.settings.eps := by
    rw [show w.context.settings = s from hp.settings]
    exact heps
  cases x with
  | new dst cls x =>
    obtain ⟨k, rfl, hx⟩ := hx
    simp only [World.plan, RotationStore.step, Encoding.ofName_name]
    show Asking.Follows _ _ _ (do return p.create dst k (← p.made s.refuses k x))
    -- both find the encoding first, then the data
    exact hp.bind_class k <| .bind (hp.makeData hx) fun h R hh => .pure (hp.create dst hh)
  | identity dst cls type =>
    obtain ⟨k, rfl⟩ := hx
    simp only [World.plan, RotationStore.step, Encoding.ofName_name]
    exact hp.bind_class k <| .pure (hp.create dst (holds_identity k _))
  | mul dst a x =>
    simp only [World.plan, RotationStore.step]
    refine .read (hp.ref a) fun y i hy => ?_
    subst hy
    refine .read (hp.subject i) ?_
    rintro _ _ ⟨k, hA⟩
    refine .read (hp.operand x) ?_
    rintro b B ⟨j, hb⟩
    -- a copy of the element is multiplied, which the plain store has no need of
    exact .bind_ok (Context.dataFor_holds hreg (.of k hA) k) fun h hh =>
      .bind_ok (Context.mul_holds hreg heps' (.of k hh.encodes) hb) fun h' hh' =>
        .pure (hp.create dst hh')
  | mulInPlace a x =>
    simp only [World.plan, RotationStore.step]
    refine .read (hp.ref a) fun y i hy => ?_
    subst hy
    refine .read (hp.subject i).with_answer ?_
    rintro _ _ ⟨⟨k, hA⟩, hi⟩
    refine .read (hp.operand x) ?_
    rintro b B ⟨j, hb⟩
    exact .bind_ok (Context.mul_holds hreg heps' (.of k hA) hb) fun h hh => .pure (hp.put hi hh)
  | invert a =>
    simp only [World.plan, RotationStore.step]
    exact hp.read_element a fun i k _ A hi hA =>
      .bind_ok (.lift (Context.inv_holds (.of k hA))) fun h hh => .pure (hp.put hi hh)
  | inverse dst a =>
    simp only [World.plan, RotationStore.step]
    refine .read (hp.named a) ?_
    rintro _ _ ⟨k, hA⟩
    exact .bind_ok (Context.dataFor_holds hreg (.of k hA) k) fun h hh =>
      .bind_ok (.lift (Context.inv_holds (.of k hh.encodes))) fun h' hh' =>
        .pure (hp.create dst hh')
  | canonical dst a =>
    simp only [World.plan, RotationStore.step]
    refine hp.read_element a fun i k _ A _ hA => ?_
    rw [hp.catalog]
    -- a matrix is canonical already, and the other encodings have a copy there
    cases k with
    | matrix => exact .pure (hp.bind dst i)
    | quaternion => exact hp.matrixCopy dst (.of .quaternion hA)
    | rodrigues => exact hp.matrixCopy dst (.of .rodrigues hA)
  | assign dst a b =>
    simp only [World.plan, RotationStore.step]
    refine hp.read_element a fun i k _ A hi _ => .read (hp.value b) ?_
    rintro t B ⟨j, hB⟩
    exact .bind_ok (Context.dataFor_holds hreg hB k) fun h hh => .pure ((hp.put hi hh).bind dst i)
  | setIdentity a type =>
    simp only [World.plan, RotationStore.step]
    exact hp.read_element a fun i k _ A hi _ => .pure (hp.put hi (holds_identity k _))
  | _ => exact hx.elim

end World.Refines

/-- The rotation matrix of the element that a register names. -/
def World.rotationOf {α : Type} [Ground α] (w : World α) (r : String) : Except Fault (Held α) := do
  w.context.rotationMatrix (← w.store.named r)

/-! ## Runs -/

/-- The steps of such a run change objects only. -/
theorem Step.Rotates.onObjects {x : Step ℝ} (hx : x.Rotates) : x.OnObjects := by
  cases x <;> trivial

namespace Session

/-- The world refines a plain store, and the router answers what the registry resolves. -/
structure Refines (σ : String → ℝ) (s : Settings ℝ) (t : Session ℝ) (p : RotationStore) : Prop where
  world : World.Refines σ s t.world p
  router : t.router.Coherent t.world.catalog.registry

/-- **Step.** The plain store follows each step, whether it answers or fails. -/
theorem step_refines {t : Session ℝ} (ht : Refines σ s t p) (heps : 0 ≤ s.eps) {x : Step ℝ}
    (hx : x.Rotates) : Refines σ s (t.step x).2 (p.after s.refuses x) := by
  obtain ⟨houtcome, hrouter⟩ := ht.world.plan heps hx t.router ht.router
  have hobjects := (t.world.plan_ensures x t.router).2
  unfold RotationStore.after
  generalize p.step s.refuses x = y at houtcome ⊢
  obtain ⟨e, r, hplan, hstep⟩ | ⟨q, r, hplan, hstep⟩ := t.step_cases x
  · rw [hplan] at houtcome hrouter
    rw [hstep]
    cases houtcome with
    | error e => exact ⟨ht.world, hrouter⟩
  · rw [hplan] at houtcome hrouter hobjects
    rw [hstep]
    -- no change of objects concerns the router or the registry
    have hq : q.change.OnObjects := hobjects q rfl hx.onObjects
    cases houtcome with
    | ok hp =>
      refine ⟨hp, ?_⟩
      show (r.apply q.change).Coherent (t.world.apply q.change).catalog.registry
      rw [hq.router_eq, hq.catalog_eq]
      exact hrouter

/-- **Run.** The plain store follows every run. -/
theorem run_refines (heps : 0 ≤ s.eps) (xs : List (Step ℝ)) (hxs : ∀ x ∈ xs, x.Rotates)
    {t : Session ℝ} (ht : Refines σ s t p) :
    Refines σ s (t.run xs).2 (xs.foldl (RotationStore.after s.refuses) p) := by
  induction xs generalizing t p with
  | nil => exact ht
  | cons x xs ih =>
    obtain ⟨hx, hxs⟩ := List.forall_mem_cons.1 hxs
    exact ih hxs (step_refines ht heps hx)

/-- **Sessions of rotations are runs of a plain store.** In a run of any length over elements of the
three exact encodings, the rotation matrix of every register is the one that the same run gives the
register in a plain store, and where the one is missing so is the other. All data stays valid: that
of matrices rotations, and that of quaternions unit quaternions. -/
theorem rotations_of_run (s : Settings ℝ) (heps : 0 ≤ s.eps) (σ : String → ℝ)
    (xs : List (Step ℝ)) (hxs : ∀ x ∈ xs, x.Rotates) :
    let w := ((⟨{ settings := s }, {}⟩ : Session ℝ).run xs).2.world
    (∀ r, (w.rotationOf r).map (fun h => h.datum.value σ) =
        ((RotationStore.run s.refuses xs).value r).map Mat3.toGrid) ∧
      ∀ e a, w.store.subject e = .ok a → ∃ k R, a.cls = Encoding.cls k ∧
        k.Encodes (a.held.datum.value σ) R := by
  have h := run_refines (σ := σ) heps xs hxs
    (t := ⟨{ settings := s }, {}⟩) ⟨.empty s, Router.coherent_of_empty rfl⟩
  refine ⟨fun r => ?_, fun e a ha => ?_⟩
  · -- the matrix that is answered is the matrix of the plain store
    refine SameOutcome.map_eq (.bind (h.world.named r) ?_)
    rintro a ⟨k, R⟩ ha
    refine (Context.rotationMatrix_holds h.world.registry ha).mono fun _ _ hm => ?_
    exact (Encoding.encodes_matrix_iff.1 hm.encodes).1
  · -- each element encodes the matrix that the plain store has for it
    have hholds := h.world.subject e.index
    rw [ha] at hholds
    generalize RotationStore.content _ _ = x at hholds
    cases hholds with
    | ok hx =>
      cases hx with
      | of k hR => exact ⟨k, _, rfl, hR⟩

/-- Parameters outside of the unit ball. -/
def outside : Vec3 ℝ := ⟨1, 1, 0⟩

/-- Parameters are multiplied in place with themselves, their matrix is multiplied with the result,
and the parameters are assigned the product and inverted under a second name. -/
def mixedRun : List (Step ℝ) :=
  [.new "a" "Mrp" (some (.data (.ok outside.toGrid))),
   .canonical "b" "a",
   .mulInPlace "a" (.register "a"),
   .mul "c" "b" (.register "a"),
   .assign "d" "a" "c",
   .invert "d"]

/-- A product in place with itself, under two names, and an inverse in the end. -/
theorem rotations_of_mixedRun : 0 ≤ (Settings.initial : Settings ℝ).eps ∧
    (∀ x ∈ mixedRun, x.Rotates) ∧
      let R := Rodrigues.toMat3 outside
      ((((⟨{ settings := .initial }, {}⟩ : Session ℝ).run mixedRun).2.world.rotationOf "a").map
        fun h => h.datum.value fun _ => 0) = .ok (R * (R * R)).transpose.toGrid := by
  have heps : 0 ≤ (Settings.initial : Settings ℝ).eps := by
    show (0 : ℝ) ≤ lit 1 / lit 10000000
    simp [lit]
  -- parameters outside the unit ball have a matrix, too
  have hnew : (Step.new "a" "Mrp" (some (.data (.ok outside.toGrid)))).Rotates :=
    ⟨.rodrigues, rfl, by
      rintro _ ⟨⟩ m ⟨⟩
      exact ⟨_, .rodrigues rfl⟩⟩
  have hxs : ∀ x ∈ mixedRun, x.Rotates := by
    simp only [mixedRun, List.forall_mem_cons]
    exact ⟨hnew, True.intro, True.intro, True.intro, True.intro, True.intro,
      List.forall_mem_nil _⟩
  exact ⟨heps, hxs, (rotations_of_run .initial heps (fun _ => 0) mixedRun hxs).1 "a"⟩

end Session

end Attitude
