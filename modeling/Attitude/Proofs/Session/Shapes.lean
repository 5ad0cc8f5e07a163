import Attitude.Proofs.Registry.Pivot
import Attitude.Proofs.Scalar.Doubles
import Attitude.Proofs.Session.Planning

/-!
# Operations on elements succeed

In a regular session the operations on elements have answers. `Step.OnElements` lists them: the
group operations, the conversions and the operations of single classes, on registers that name
elements. What the data of these elements is does not matter, neither how it came about nor whether
it is a rotation. The only fault that is left is the refusal of a skew part under a negative
tolerance (`World.Regular.plan_refuses`), and lenient settings exclude it.
-/

namespace Attitude

open Asking

variable {α : Type} [Ground α] {w : World α} {s : Store α}

/-! ## Operations on elements -/

/-- The register names an element. -/
def Store.NamesElement {α : Type} (s : Store α) (r : String) : Prop :=
  ∃ e, s.ref r = .ok (.element e)

/-- The register names an element of a family. -/
def Store.NamesFamily {α : Type} (s : Store α) (r : String) (f : Family) : Prop :=
  ∃ e c, s.ref r = .ok (.element e) ∧ s.cell e = .ok c ∧ c.cls.family = f

/-- The name of a class of elements that exists from the start. -/
def Family.className : Family → String
  | .matrix => ElementClass.matrix.name
  | .quaternion => ElementClass.quaternion.name
  | .rotationVector => ElementClass.rotationVector.name
  | .euler => ElementClass.euler.name
  | .rodrigues => ElementClass.rodrigues.name

/-- An operation on elements that exist. -/
inductive Step.OnElements (w : World α) : Step α → Prop
  | new (dst : String) (f : Family) {b : String} (hb : w.store.NamesElement b) :
      OnElements w (.new dst f.className (some (.register b)))
  | identity (dst : String) (f : Family) (type : Option ScalarType) :
      OnElements w (.identity dst f.className type)
  | log (dst : String) {a : String} (ha : w.store.NamesElement a) : OnElements w (.log dst a)
  | rotationMatrix (dst : String) {a : String} (ha : w.store.NamesElement a) :
      OnElements w (.rotationMatrix dst a)
  | angle (dst : String) {a : String} (ha : w.store.NamesFamily a .rotationVector) :
      OnElements w (.angle dst a)
  | shadow (dst : String) {a : String} (ha : w.store.NamesFamily a .rodrigues) :
      OnElements w (.shadow dst a)
  | coordinates (dst : String) {a encoding : String} (f : Family) (ha : w.store.NamesElement a)
      (hf : w.catalog.keyOfClassOrTag encoding = .tag f.tag) :
      OnElements w (.coordinates dst a encoding)
  | mul (dst : String) {a b : String} (ha : w.store.NamesElement a)
      (hb : w.store.NamesElement b) : OnElements w (.mul dst a (.register b))
  | mulInPlace {a b : String} (ha : w.store.NamesElement a) (hb : w.store.NamesElement b) :
      OnElements w (.mulInPlace a (.register b))
  | invert {a : String} (ha : w.store.NamesElement a) : OnElements w (.invert a)
  | inverse (dst : String) {a : String} (ha : w.store.NamesElement a) :
      OnElements w (.inverse dst a)
  | canonical (dst : String) {a : String} (ha : w.store.NamesElement a) :
      OnElements w (.canonical dst a)
  | assign (dst : String) {a b : String} (ha : w.store.NamesElement a)
      (hb : w.store.NamesElement b) : OnElements w (.assign dst a b)
  | setIdentity {a : String} (type : Option ScalarType) (ha : w.store.NamesElement a) :
      OnElements w (.setIdentity a type)

/-! ## Reading what exists -/

namespace Store

/-- An element that a register names has a class and data. -/
theorem Regular.exists_subject (hs : s.Regular) {r : String} (hr : s.NamesElement r) :
    ∃ e a, s.ref r = .ok (.element e) ∧ s.subject e = .ok a ∧ a.Regular := by
  obtain ⟨e, he⟩ := hr
  have hget : s.registers.get? r = some (.element e) := by
    unfold Store.ref at he
    split at he
    · next x hx =>
      cases he
      exact hx
    · cases he
  obtain ⟨c, hc⟩ := hs.registers r e hget
  obtain ⟨x, hx, -⟩ := (hs.elements _ c hc).data
  have ha : s.subject e = .ok ⟨c.cls, ⟨x, some c.data⟩⟩ := subject_eq_ok_iff.2 ⟨c, x, hc, hx, rfl⟩
  exact ⟨e, _, he, ha, (hs.subject ha).1⟩

/-- A register of an element has a regular one. -/
theorem Regular.exists_named (hs : s.Regular) {r : String} (hr : s.NamesElement r) :
    ∃ a, s.named r = .ok a ∧ a.Regular := by
  obtain ⟨e, a, he, ha, hreg⟩ := hs.exists_subject hr
  refine ⟨a, ?_, hreg⟩
  unfold Store.named
  rw [elementId_of_ref he]
  exact ha

/-- A register of an element of a family has a regular one of that family. -/
theorem Regular.exists_namedFamily (hs : s.Regular) {r : String} {f : Family}
    (hr : s.NamesFamily r f) : ∃ a, s.named r = .ok a ∧ a.Regular ∧ a.cls.family = f := by
  obtain ⟨e, c, he, hc, hf⟩ := hr
  obtain ⟨e', a, he', ha, hreg⟩ := hs.exists_subject ⟨e, he⟩
  -- a register names one element, and the element has one class
  obtain rfl : e = e' := by
    rw [he] at he'
    cases he'
    rfl
  obtain ⟨-, c', hc', hcls⟩ := hs.subject ha
  obtain rfl : c = c' := by
    rw [hc] at hc'
    cases hc'
    rfl
  refine ⟨a, ?_, hreg, hcls ▸ hf⟩
  unfold Store.named
  rw [elementId_of_ref he]
  exact ha

end Store

namespace World

/-- A register of an element is an argument with a regular one. -/
theorem Regular.exists_elementOf? (hw : w.Regular) {r : String} (hr : w.store.NamesElement r) :
    ∃ b, w.elementOf? (.register r) = .ok (some b) ∧ b.Regular := by
  obtain ⟨e, b, he, hb, hreg⟩ := hw.store.exists_subject hr
  refine ⟨b, ?_, hreg⟩
  show w.store.ref r >>= _ = _
  rw [he]
  show w.store.subject e >>= _ = _
  rw [hb]
  rfl

/-- A register of an element is an operand with a regular one. -/
theorem Regular.exists_operand (hw : w.Regular) {r : String} (hr : w.store.NamesElement r) :
    ∃ b, w.operand (.register r) = .ok b ∧ b.Regular := by
  obtain ⟨b, hb, hreg⟩ := hw.exists_elementOf? hr
  refine ⟨b, ?_, hreg⟩
  unfold World.operand
  rw [hb]
  rfl

/-- The class of a family is found by its name. -/
theorem Regular.exists_class (hw : w.Regular) (f : Family) :
    ∃ cls c, w.catalog.classNamed f.className = .ok cls ∧ cls.concrete = .ok c ∧ c.Regular := by
  have hnamed : ∃ cls c, Catalog.initial.classNamed f.className = .ok cls ∧
      cls.concrete = .ok c ∧ c.Regular := by
    cases f <;> exact ⟨_, _, rfl, rfl, rfl⟩
  unfold Catalog.classNamed at hnamed ⊢
  rw [hw.catalog.classes]
  exact hnamed

variable [LawfulDifferences α]

/-- **Operations on elements** have an answer, unless the settings refuse a skew part. -/
theorem Regular.plan_refuses (hw : w.Regular) {x : Step α} (hx : x.OnElements w) :
    Fulfils w.context.registry w.settings.Refuses (fun _ => True) (w.plan x) := by
  have hreg : w.context.registry = Catalog.builtinRegistry := hw.catalog.registry
  have hs := hw.store
  cases hx with
  | new dst f hb =>
    obtain ⟨cls, c, hcls, hc, hregular⟩ := hw.exists_class f
    obtain ⟨b, hb, hb'⟩ := hw.exists_elementOf? hb
    have hdata : Fulfils w.context.registry w.settings.Refuses (Held.IsNew c.family.shape)
        (w.makeData c (some (.register _))) :=
      .read_ok hb (Context.dataFor_new hreg hb' hregular)
    exact .read_ok hcls <| .read_ok hc <| .bind hdata fun _ _ => .pure trivial
  | identity dst f type =>
    obtain ⟨cls, c, hcls, hc, -⟩ := hw.exists_class f
    exact .read_ok hcls <| .read_ok hc <| .pure trivial
  | log dst ha =>
    obtain ⟨e, a, he, ha, hregular⟩ := hs.exists_subject ha
    exact .read_ok he <| .read_ok ha <|
      .bind (Context.coordinates_new hreg hregular .rotationVector) fun _ _ => .pure trivial
  | rotationMatrix dst ha =>
    obtain ⟨a, ha, hregular⟩ := hs.exists_named ha
    exact .read_ok ha <| .read (Context.rotationMatrix_new hreg hregular) fun _ _ => .pure trivial
  | angle dst ha =>
    obtain ⟨a, ha, hregular, hf⟩ := hs.exists_namedFamily ha
    have hangle : Meets w.settings.Refuses (fun _ => True) (Context.angle a) :=
      (Context.angle_of_rotationVector hregular hf).mono nofun fun _ => id
    exact .read_ok ha <| .read hangle fun _ _ => .pure trivial
  | shadow dst ha =>
    obtain ⟨a, ha, hregular, hf⟩ := hs.exists_namedFamily ha
    have hshadow : Meets w.context.settings.Refuses (fun _ => True) (w.context.shadow a) :=
      Context.shadow_of_rodrigues hregular hf
    exact .read_ok ha <| .read hshadow fun _ _ => .pure trivial
  | coordinates dst f ha hf =>
    obtain ⟨a, ha, hregular⟩ := hs.exists_named ha
    simp only [plan, hf]
    exact .read_ok ha <| .bind (Context.coordinates_new hreg hregular f) fun _ _ => .pure trivial
  | mul dst ha hb =>
    obtain ⟨e, a, he, ha, hregular⟩ := hs.exists_subject ha
    obtain ⟨b, hb, hb'⟩ := hw.exists_operand hb
    exact .read_ok he <| .read_ok ha <| .read_ok hb <|
      .bind (Context.copy_regular hreg hregular) fun _ hcopy =>
        .bind (Context.mul_new hreg hcopy hb') fun _ _ => .pure trivial
  | mulInPlace ha hb =>
    obtain ⟨e, a, he, ha, hregular⟩ := hs.exists_subject ha
    obtain ⟨b, hb, hb'⟩ := hw.exists_operand hb
    exact .read_ok he <| .read_ok ha <| .read_ok hb <|
      .bind (Context.mul_new hreg hregular hb') fun _ _ => .pure trivial
  | invert ha =>
    obtain ⟨e, a, he, ha, hregular⟩ := hs.exists_subject ha
    exact .read_ok (Store.elementId_of_ref he) <| .read_ok ha <|
      .read (Context.inv_new hreg hregular) fun _ _ => .pure trivial
  | inverse dst ha =>
    obtain ⟨a, ha, hregular⟩ := hs.exists_named ha
    exact .read_ok ha <| .bind (Context.copy_regular hreg hregular) fun _ hcopy =>
      .read (Context.inv_new hreg hcopy) fun _ _ => .pure trivial
  | canonical dst ha =>
    obtain ⟨e, a, he, ha, hregular⟩ := hs.exists_subject ha
    have hcanonical : w.catalog.registry.isCanonical a.cls.key =
        .ok (decide (Tag.matrix = a.cls.family.tag)) := by
      rw [hregular.cls.key_eq, hw.catalog.registry]
      exact Registry.isCanonical_of_traits a.cls.family.traits
    have hfind : w.catalog.registry.find a.cls.key =
        .ok (a.cls.family.tag, ⟨a.cls.family.shape, .matrix⟩) := by
      rw [hregular.cls.key_eq, hw.catalog.registry]
      exact a.cls.family.find
    -- other elements are converted to the class of matrices, as the tables of the start say
    have hholder : w.catalog.holder (.tag .matrix) = .ok .matrix := by
      unfold Catalog.holder
      rw [hw.catalog.holders]
      rfl
    refine .read_ok (Store.elementId_of_ref he) <| .read_ok ha <| .read_ok hcanonical ?_
    by_cases h : Tag.matrix = a.cls.family.tag
    · simp only [h, decide_true, if_true]
      exact .pure trivial
    · simp only [h, decide_false, Bool.false_eq_true, if_false]
      have hmatrix : ConcreteClass.Regular ⟨"Dcm", .matrix, some .matrix⟩ := rfl
      exact .read_ok hfind <| .read_ok hholder <| .read_ok rfl <|
        .bind (Context.dataFor_new hreg hregular hmatrix) fun _ _ => .pure trivial
  | assign dst ha hb =>
    obtain ⟨e, a, he, ha, hregular⟩ := hs.exists_subject ha
    obtain ⟨b, hb, hb'⟩ := hs.exists_named hb
    exact .read_ok (Store.elementId_of_ref he) <| .read_ok ha <| .read_ok hb <|
      .bind (Context.dataFor_new hreg hb' hregular.cls) fun _ _ => .pure trivial
  | setIdentity type ha =>
    obtain ⟨e, a, he, ha, -⟩ := hs.exists_subject ha
    exact .read_ok (Store.elementId_of_ref he) <| .read_ok ha <| .pure trivial

end World

namespace Session

/-- The data of an element has the shape that the traits of its class name. -/
theorem Regular.shape {s : Session α} (hs : s.Regular) {e : ElementId} {c : ElementCell}
    (hc : s.world.store.cell e = .ok c) :
    ∃ x t r, s.world.store.sheet c.data = .ok x ∧
      s.world.catalog.registry.find c.cls.key = .ok (t, r) ∧ x.datum.shape = r.shape := by
  have hregular := hs.world.store.elements _ c (Store.cell_eq_ok_iff.1 hc)
  obtain ⟨x, hx, hshape⟩ := hregular.data
  refine ⟨x, c.cls.family.tag, ⟨c.cls.family.shape, .matrix⟩, Store.sheet_eq_ok_iff.2 hx, ?_,
    hshape⟩
  rw [hregular.cls.key_eq, hs.world.catalog.registry]
  exact c.cls.family.find

variable [LawfulDifferences α]

/-- **Step.** An operation on elements answers, whatever numbers are in the data. -/
theorem Regular.succeeds {s : Session α} (hs : s.Regular) (hlenient : s.world.settings.Lenient)
    {x : Step α} (hx : x.OnElements s.world) : ∃ a, (s.step x).1 = .ok a := by
  have hreg : s.world.context.registry = Catalog.builtinRegistry := hs.world.catalog.registry
  obtain ⟨houtcome, -⟩ := hs.world.plan_refuses hx s.router (hreg ▸ hs.router)
  obtain ⟨e, r, hplan, -⟩ | ⟨p, r, -, hstep⟩ := s.step_cases x
  · rw [hplan] at houtcome
    cases houtcome with
    | error he => exact absurd he (hlenient.not_refuses e)
  · exact ⟨p.answer, by rw [hstep]⟩

/-- **Shapes.** In every state of a run the data of every element has the shape that the traits of
its class name, and under lenient settings every operation on elements succeeds. -/
theorem shapes_of_run (settings : Settings α) (xs : List (Step α))
    (hxs : ∀ x ∈ xs, x.KeepsTables) :
    let s := ((⟨{ settings := settings }, {}⟩ : Session α).run xs).2
    (∀ e c, s.world.store.cell e = .ok c → ∃ x t r, s.world.store.sheet c.data = .ok x ∧
        s.world.catalog.registry.find c.cls.key = .ok (t, r) ∧ x.datum.shape = r.shape) ∧
      (s.world.settings.Lenient → ∀ x, x.OnElements s.world → ∃ a, (s.step x).1 = .ok a) := by
  have hs := regular_run settings xs hxs
  exact ⟨fun _ _ => hs.shape, fun hlenient _ => hs.succeeds hlenient⟩

/-- Parameters are changed by hand, and checks are switched on. -/
def pokedRun : List (Step Float) :=
  [.new "a" "Mrp" none,
   .getData "m" "a",
   .poke "m" (.linear 0) 5,
   .identity "b" "AngleAxis" none,
   .configure (.checks true)]

/-- A product answers although a factor was changed by hand, with checks on. -/
theorem mulInPlace_after_pokedRun : (∀ x ∈ pokedRun, x.KeepsTables) ∧
    (initial.run pokedRun).2.world.settings.checks = true ∧
    (initial.run pokedRun).2.world.settings.Lenient ∧
    (Step.mulInPlace "b" (.register "a")).OnElements (initial.run pokedRun).2.world ∧
    ∃ a, ((initial.run pokedRun).2.step (.mulInPlace "b" (.register "a"))).1 = .ok a := by
  have hxs : ∀ x ∈ pokedRun, x.KeepsTables := by
    simp only [pokedRun, List.forall_mem_cons]
    exact ⟨trivial, trivial, trivial, trivial, trivial, List.forall_mem_nil _⟩
  have hlenient : (initial.run pokedRun).2.world.settings.Lenient := .inr rfl
  have hx : (Step.mulInPlace "b" (.register "a")).OnElements (initial.run pokedRun).2.world :=
    .mulInPlace ⟨⟨1⟩, rfl⟩ ⟨⟨0⟩, rfl⟩
  exact ⟨hxs, rfl, hlenient, hx, (shapes_of_run .initial pokedRun hxs).2 hlenient _ hx⟩

end Session

end Attitude
