import Attitude.Proofs.Elements.Closeness
import Attitude.Proofs.Session.Exponentials
import Attitude.Proofs.Session.Logarithms

/-!
# Two comparisons in a session

Whether two elements are close is asked of their quaternions or of their matrices, as their classes
are. Here both questions are asked of the same two rotations, which a session holds as quaternions
and as the matrices made of them.

A new element has the numbers that it is made with, and the other elements keep theirs (`Makes`), so
after the four elements are made it is known what is compared. The two answers follow each other up
to a factor in the tolerance (`closeness_of_run`).
-/

namespace Attitude

open Asking

/-! ## Names of elements -/

namespace Store

variable {α : Type} {s : Store α} {r r' : String} {a : Subject α} {h : Held α}

/-- A register that names an element shows its content. -/
theorem named_of_ref {e : ElementId} (hr : s.ref r = .ok (.element e))
    (ha : s.subject e = .ok a) : s.named r = .ok a := by
  simp only [named, elementId_of_ref hr]
  exact ha

variable [Ground α]

/-- A new element is found under the register it was bound to. -/
theorem named_bindElement_self (s : Store α) (r : String) (c : ConcreteClass)
    (hh : h.home = none) : (s.bindElement r c h).named r =
      .ok ⟨c, ⟨h.sheet.stamp s.labels, some ⟨s.matrices.size⟩⟩⟩ := by
  refine named_of_ref ?_ (subject_bindElement_self s r c hh)
  rw [bindElement_of_new s r c hh]
  simp only [ref, Table.get?_insert_self]

/-- The other registers name what they named before. -/
theorem named_bindElement_of_ne (c : ConcreteClass) (hh : h.home = none) (hr : r' ≠ r)
    (ha : s.named r' = .ok a) : (s.bindElement r c h).named r' = .ok a := by
  obtain ⟨e, he, ha⟩ := exists_of_bind_eq_ok ha
  refine named_of_ref (e := e) ?_ (subject_bindElement_of_ok r c hh ha)
  rw [← ref_of_elementId he, bindElement_of_new s r c hh]
  simp only [ref, Table.get?_insert_of_ne _ _ hr]

end Store

/-! ## Making elements of numbers -/

namespace World

variable {w : World ℝ} {f g : Family} {m n : Grid ℝ} {R : Mat3 ℝ}

/-- Numbers of a rotation are taken as they are. -/
theorem Regular.makeData_of_rotation (hw : w.Regular) (hs : w.settings.Lenient)
    (hm : f.HasMatrix m R) (hR : R.IsRotation) :
    Fulfils w.catalog.registry (fun _ => False) (fun h => h.home = none ∧ h.datum = .numeric m)
      (w.makeData f.concreteClass (some (.data (.ok m)))) := by
  have hreg : w.context.registry = Catalog.builtinRegistry := hw.catalog.registry
  have htaken : w.context.takeData f.concreteClass (.fresh (.numeric m)) =
      .ok (Held.fresh (.numeric m)).copy :=
    Context.takeData_of_rotation hreg hs rfl trivial rfl hm hR
  exact .read_ok rfl (.read_ok rfl (.lift (.of_eq_ok htaken ⟨rfl, rfl⟩)))

/-- Numbers of another element are converted along the links between the two. -/
theorem Regular.makeData_of_element (hw : w.Regular) (hs : w.settings.Lenient) {r : String}
    {h : Held ℝ} (hr : w.store.named r = .ok ⟨f.concreteClass, h⟩) (hh : h.datum = .numeric m)
    {route : Route Formula}
    (hroute : Catalog.builtinRegistry.resolve (.tag f.tag) (.tag g.tag) = .ok route)
    (hn : route.links.foldlM (Link.onNumbers w.settings.eps) m = .ok n) :
    Fulfils w.catalog.registry (fun _ => False) (fun h => h.home = none ∧ h.datum = .numeric n)
      (w.makeData g.concreteClass (some (.register r))) := by
  have hreg : w.context.registry = Catalog.builtinRegistry := hw.catalog.registry
  -- the stored numbers have the shape of the class, as for any element
  have hshape : m.shape = f.shape := by
    have hfits := (hw.store.named hr).fits.shape
    rw [hh] at hfits
    exact hfits
  exact .read_ok (elementOf?_of_named hr)
    (Context.convert_of_numbers hreg hs hroute hh hshape hn)

end World

namespace Session

variable {s t : Session ℝ} {f g : Family} {r r' : String} {m n : Grid ℝ}

/-- The register names an element of a family that has the numbers `m` for its data. -/
def HasNumbers (s : Session ℝ) (r : String) (f : Family) (m : Grid ℝ) : Prop :=
  ∃ h : Held ℝ, s.world.store.named r = .ok ⟨f.concreteClass, h⟩ ∧ h.datum = .numeric m

/-- The second session has a new element of numbers in the register, and is otherwise as the first
one. -/
structure Makes (s t : Session ℝ) (r : String) (f : Family) (m : Grid ℝ) : Prop where
  regular : t.Regular
  settings : t.world.settings = s.world.settings
  made : t.HasNumbers r f m
  others : ∀ r' g n, r' ≠ r → s.HasNumbers r' g n → t.HasNumbers r' g n

/-- A step that binds a new element of numbers answers it and changes nothing else. -/
theorem Regular.step_of_newElement (hs : s.Regular) {x : Step ℝ} (hx : x.KeepsTables)
    (hplan : Fulfils s.world.catalog.registry (fun _ => False) (fun p => ∃ h : Held ℝ,
      p = .newElement r f.concreteClass h ∧ h.home = none ∧ h.datum = .numeric m)
      (s.world.plan x)) :
    ∃ t, s.step x = (.ok (.element f.elementClass.name (Datum.numeric m).shown), t) ∧
      s.Makes t r f m := by
  have hregular := hs.step hx
  obtain ⟨p, ρ, ⟨h, rfl, hhome, hm⟩, -, hstep⟩ := step_of_fulfils hs.coherent hplan
  rw [hstep] at hregular
  rw [← hm]
  refine ⟨_, hstep, hregular, rfl, ?_, ?_⟩
  · exact ⟨_, Store.named_bindElement_self _ _ _ hhome, congrArg (Datum.stamp _) hm⟩
  · -- the other elements are older and keep their data
    rintro r' g n hr ⟨k, hk, hn⟩
    exact ⟨k, Store.named_bindElement_of_ne _ hhome hr hk, hn⟩

/-- An element is made of what the class makes of an argument. -/
theorem Regular.step_new (hs : s.Regular) {x : Option (Argument ℝ)}
    (hx : Fulfils s.world.catalog.registry (fun _ => False)
      (fun h => h.home = none ∧ h.datum = .numeric m) (s.world.makeData f.concreteClass x))
    (r : String) : ∃ y t, s.step (.new r f.elementClass.name x) = (.ok y, t) ∧
      s.Makes t r f m := by
  obtain ⟨t, hstep, ht⟩ := hs.step_of_newElement (x := .new r f.elementClass.name x) trivial
    (.read_ok (hs.world.catalog.classNamed_elementClass f) (.read_ok f.concrete_elementClass
      (.bind hx fun h hh => .pure ⟨h, rfl, hh⟩)))
  exact ⟨_, t, hstep, ht⟩

/-- An element is made of the numbers of a rotation. -/
theorem Regular.step_new_of_rotation (hs : s.Regular) (hlenient : s.world.settings.Lenient)
    {R : Mat3 ℝ} (hm : f.HasMatrix m R) (hR : R.IsRotation) (r : String) :
    ∃ y t, s.step (.new r f.elementClass.name (some (.data (.ok m)))) = (.ok y, t) ∧
      s.Makes t r f m :=
  hs.step_new (hs.world.makeData_of_rotation hlenient hm hR) r

/-- A matrix is made of a quaternion. -/
theorem Regular.step_new_of_quaternion (hs : s.Regular) (hlenient : s.world.settings.Lenient)
    {q : Quaternion ℝ} (hq : s.HasNumbers r' .quaternion q.toGrid) (r : String) :
    ∃ y t, s.step (.new r Family.matrix.elementClass.name (some (.register r'))) = (.ok y, t) ∧
      s.Makes t r .matrix q.toMat3.toGrid := by
  obtain ⟨h, hr, hh⟩ := hq
  obtain ⟨kind, hroute⟩ := Encoding.resolve_eq .quaternion .matrix
  exact hs.step_new (hs.world.makeData_of_element hlenient (g := .matrix) hr hh hroute rfl) r

/-! ## Questions -/

/-- Whether two elements are close is answered from their data. -/
theorem answer_of_isClose {α : Type} [Ground α] {s : Session α} {a b : String} {x y : Subject α}
    (hx : s.world.store.named a = .ok x) (hy : s.world.store.named b = .ok y) (tol : Option α) :
    (s.step (.ask (.isClose a b tol))).1 =
      (s.world.context.isClose (tol.getD s.world.settings.defaultTol) x y).map .flag := by
  generalize hclose : s.world.context.isClose (tol.getD s.world.settings.defaultTol) x y = close
  have hplan : (s.world.plan (.ask (.isClose a b tol))).run s.router =
      (close.map fun z => .reply (.flag z), s.router) := by
    simp only [World.plan, World.answer, run_bind, run_lift, hx, hy, hclose]
    cases close <;> rfl
  unfold step
  rw [hplan]
  cases close <;> rfl

variable {a b : String} {p q : Quaternion ℝ}

/-- The comparison of two quaternions answers whether their distance is at most the tolerance. They
are unit quaternions, so the tolerance is not scaled. -/
theorem ask_quaternions (hp : p.IsUnit) (hq : q.IsUnit)
    (ha : s.HasNumbers a .quaternion p.toGrid) (hb : s.HasNumbers b .quaternion q.toGrid)
    (tol : ℝ) : (s.step (.ask (.isClose a b (some tol)))).1 =
      .ok (.flag (decide (p.distance q ≤ tol))) := by
  obtain ⟨h, ha, hh⟩ := ha
  obtain ⟨k, hb, hk⟩ := hb
  have hh : h.datum.numbers? = some p.toGrid := hh ▸ rfl
  have hk : k.datum.numbers? = some q.toGrid := hk ▸ rfl
  have htag : (⟨Family.quaternion.concreteClass, h⟩ : Subject ℝ).cls.tag =
    (⟨Family.quaternion.concreteClass, k⟩ : Subject ℝ).cls.tag := rfl
  rw [answer_of_isClose ha hb]
  exact congrArg (Except.map _) (Context.isClose_of_units htag rfl hp hq hh hk tol)

/-- The comparison of two rotation matrices answers whether their distance is at most the tolerance,
scaled by the norm that all rotations have. -/
theorem Regular.ask_matrices (hs : s.Regular) {M N : Mat3 ℝ} (hM : M.IsRotation)
    (hN : N.IsRotation) (ha : s.HasNumbers a .matrix M.toGrid)
    (hb : s.HasNumbers b .matrix N.toGrid) (tol : ℝ) :
    (s.step (.ask (.isClose a b (some tol)))).1 =
      .ok (.flag (decide ((M - N).norm ≤ tol * Real.sqrt 3))) := by
  obtain ⟨h, ha, hh⟩ := ha
  obtain ⟨k, hb, hk⟩ := hb
  have hreg : s.world.context.registry = Catalog.builtinRegistry := hs.world.catalog.registry
  have hh : h.datum.numbers? = some M.toGrid := hh ▸ rfl
  have hk : k.datum.numbers? = some N.toGrid := hk ▸ rfl
  -- only two quaternions are compared up to sign
  have hcls : ¬ (Family.matrix.concreteClass.tag = Family.matrix.concreteClass.tag ∧
    Family.matrix.concreteClass.family = .quaternion) := nofun
  rw [answer_of_isClose ha hb]
  exact congrArg (Except.map _) (Context.isClose_of_rotations hreg hcls (hs.world.store.named ha)
    (hs.world.store.named hb) hh hk (.matrix M) (.matrix N) hM hN tol)

/-! ## Two comparisons -/

/-- Two quaternions are made, and the matrices of them. -/
theorem Regular.run_both (hs : s.Regular) (hlenient : s.world.settings.Lenient) (hp : p.IsUnit)
    (hq : q.IsUnit) {c d : String} (hnames : [a, b, c, d].Nodup) :
    ∃ y₁ y₂ y₃ y₄ t, s.run [
        .new a Family.quaternion.elementClass.name (some (.data (.ok p.toGrid))),
        .new b Family.quaternion.elementClass.name (some (.data (.ok q.toGrid))),
        .new c Family.matrix.elementClass.name (some (.register a)),
        .new d Family.matrix.elementClass.name (some (.register b))] =
          ([.ok y₁, .ok y₂, .ok y₃, .ok y₄], t) ∧
      t.Regular ∧ t.HasNumbers a .quaternion p.toGrid ∧ t.HasNumbers b .quaternion q.toGrid ∧
      t.HasNumbers c .matrix p.toMat3.toGrid ∧ t.HasNumbers d .matrix q.toMat3.toGrid := by
  simp only [List.nodup_cons, List.mem_cons, List.not_mem_nil, or_false, not_or] at hnames
  obtain ⟨⟨hab, hac, had⟩, ⟨hbc, hbd⟩, hcd, -⟩ := hnames
  obtain ⟨y₁, t₁, hstep₁, h₁⟩ := hs.step_new_of_rotation hlenient (.quaternion p) hp.isRotation a
  have hlenient₁ : t₁.world.settings.Lenient := h₁.settings ▸ hlenient
  obtain ⟨y₂, t₂, hstep₂, h₂⟩ :=
    h₁.regular.step_new_of_rotation hlenient₁ (.quaternion q) hq.isRotation b
  have hlenient₂ : t₂.world.settings.Lenient := h₂.settings ▸ hlenient₁
  -- a matrix is made of a quaternion that is still there, as every name is a new one
  have ha := h₂.others _ _ _ hab h₁.made
  obtain ⟨y₃, t₃, hstep₃, h₃⟩ := h₂.regular.step_new_of_quaternion hlenient₂ ha c
  have hlenient₃ : t₃.world.settings.Lenient := h₃.settings ▸ hlenient₂
  have hb := h₃.others _ _ _ hbc h₂.made
  obtain ⟨y₄, t₄, hstep₄, h₄⟩ := h₃.regular.step_new_of_quaternion hlenient₃ hb d
  refine ⟨y₁, y₂, y₃, y₄, t₄, ?_, h₄.regular, ?_, h₄.others _ _ _ hbd hb, ?_, h₄.made⟩
  · simp only [run, hstep₁, hstep₂, hstep₃, hstep₄]
  · exact h₄.others _ _ _ had (h₃.others _ _ _ hac ha)
  · exact h₄.others _ _ _ hcd h₃.made

/-- **Two comparisons.** After a run that keeps the tables, two quaternions are made of unit
quaternions of numbers, and two matrices of them. The matrices are at least two times and at most
`√8` times as far apart as the quaternions are up to sign. So if the matrices are close, the
quaternions are close under the same tolerance, and if the quaternions are close, so are the
matrices under `√(8/3)` times the tolerance. -/
theorem closeness_of_run (settings : Settings ℝ) (xs : List (Step ℝ))
    (hxs : ∀ x ∈ xs, x.KeepsTables) :
    let s := ((⟨{ settings := settings }, {}⟩ : Session ℝ).run xs).2
    s.world.settings.Lenient →
    ∀ (p q : Quaternion ℝ) (a b c d : String), p.IsUnit → q.IsUnit → [a, b, c, d].Nodup →
      let made := s.run [.new a "Quat" (some (.data (.ok p.toGrid))),
        .new b "Quat" (some (.data (.ok q.toGrid))), .new c "Dcm" (some (.register a)),
        .new d "Dcm" (some (.register b))]
      let close x y tol := (made.2.step (.ask (.isClose x y (some tol)))).1
      let distance := (p.toMat3 - q.toMat3).norm
      4 * p.distance q ^ 2 ≤ distance ^ 2 ∧ distance ^ 2 ≤ 8 * p.distance q ^ 2 ∧
      (∃ y₁ y₂ y₃ y₄, made.1 = [.ok y₁, .ok y₂, .ok y₃, .ok y₄]) ∧
      ∀ tol : ℝ,
        close c d tol = .ok (.flag (decide (distance ≤ tol * Real.sqrt 3))) ∧
        close a b tol = .ok (.flag (decide (p.distance q ≤ tol))) ∧
        (close c d tol = .ok (.flag true) → close a b tol = .ok (.flag true)) ∧
        (close a b tol = .ok (.flag true) →
          close c d (Real.sqrt (8 / 3) * tol) = .ok (.flag true)) := by
  intro s hlenient p q a b c d hp hq hnames made close distance
  have hs : s.Regular := regular_run settings xs hxs
  obtain ⟨y₁, y₂, y₃, y₄, t, hrun, ht, ha, hb, hc, hd⟩ := hs.run_both hlenient hp hq hnames
  have hmade : made = (_, t) := hrun
  -- both comparisons answer whether a distance is within a tolerance
  have hmatrices (tol : ℝ) :
      close c d tol = .ok (.flag (decide (distance ≤ tol * Real.sqrt 3))) := by
    simp only [close, hmade]
    exact ht.ask_matrices hp.isRotation hq.isRotation hc hd tol
  have hquaternions (tol : ℝ) : close a b tol = .ok (.flag (decide (p.distance q ≤ tol))) := by
    simp only [close, hmade]
    exact ask_quaternions hp hq ha hb tol
  refine ⟨Quaternion.four_mul_distance_sq_le hp hq, Quaternion.norm_toMat3_sub_sq_le hp hq,
    ⟨y₁, y₂, y₃, y₄, by rw [hmade]⟩, fun tol => ⟨hmatrices tol, hquaternions tol, ?_, ?_⟩⟩
  · -- hence the bounds between the distances carry the answers over
    rw [hmatrices, hquaternions]
    simp only [Except.ok.injEq, Answer.flag.injEq, decide_eq_true_eq]
    exact Quaternion.distance_le_of_norm_toMat3_sub_le hp hq
  · rw [hmatrices, hquaternions]
    simp only [Except.ok.injEq, Answer.flag.injEq, decide_eq_true_eq]
    exact Quaternion.norm_toMat3_sub_le_of_distance_le hp hq

/-- The quaternion of the run and the one of no rotation: the nearer sum is `√(4/5)` long. -/
theorem closeness_after_loweredRun :
    (∀ x ∈ loweredRun, x.KeepsTables) ∧
      let s := ((⟨{ settings := .initial }, {}⟩ : Session ℝ).run loweredRun).2
      let made := s.run [.new "p" "Quat" (some (.data (.ok lower.toGrid))),
        .new "q" "Quat" (some (.data (.ok Quaternion.one.toGrid))),
        .new "m" "Dcm" (some (.register "p")), .new "n" "Dcm" (some (.register "q"))]
      let close x y tol := (made.2.step (.ask (.isClose x y (some tol)))).1
      s.world.settings.Lenient ∧ lower.IsUnit ∧ (Quaternion.one : Quaternion ℝ).IsUnit ∧
      ["p", "q", "m", "n"].Nodup ∧
      (∃ y₁ y₂ y₃ y₄, made.1 = [.ok y₁, .ok y₂, .ok y₃, .ok y₄]) ∧
      close "p" "q" 1 = .ok (.flag true) ∧
      close "m" "n" (Real.sqrt (8 / 3) * 1) = .ok (.flag true) := by
  have hnames : ["p", "q", "m", "n"].Nodup := by decide
  have hone : (Quaternion.one : Quaternion ℝ).IsUnit := Quaternion.isUnit_one
  obtain ⟨-, -, hmade, hclose⟩ := closeness_of_run .initial loweredRun
    keepsTables_loweredRun (.inl rfl) lower .one "p" "q" "m" "n" isUnit_lower hone hnames
  obtain ⟨-, hquaternions, -, hmatrices⟩ := hclose 1
  have hdot : lower.dot Quaternion.one = -(3 / 5) := by
    simp only [Quaternion.dot, lower, Quaternion.one]
    norm_num
  -- the first quaternion lies below, so its negative is the nearer one
  have hnear : lower.distance Quaternion.one ≤ 1 := by
    refine (sq_le_sq₀ (Quaternion.distance_nonneg _ _) zero_le_one).1 ?_
    rw [Quaternion.distance_sq isUnit_lower hone, hdot]
    norm_num [abs_of_pos]
  rw [decide_eq_true hnear] at hquaternions
  exact ⟨keepsTables_loweredRun, .inl rfl, isUnit_lower, hone, hnames, hmade, hquaternions,
    hmatrices hquaternions⟩

end Session

end Attitude
