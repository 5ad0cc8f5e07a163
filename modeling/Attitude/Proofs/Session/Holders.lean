import Attitude.Proofs.Session.Ownership
import Attitude.Proofs.Session.Wiring

/-!
# The class that holds a tag

The class that holds the elements of a tag is the one that was last defined for it
(`Session.holder_run_iff`). Its tag is equipped, and stays so whatever is declared later. So a
conversion between the tags of two classes finds a chain as long as the two tags name the same
canonical encoding (`Session.holders_of_run`).

Elements keep the class that they were made with, also when another class takes its name. So that
the tag of a class is held has to be known of elements as well (`Session.Wired`).
-/

namespace Attitude

open Asking

/-! ## Failures for want of a chain -/

/-- No chain leads from one encoding to another: one of them has no traits or lacks a leg, or they
have no common canonical encoding. -/
def Fault.OfRoute : Fault → Prop
  | .noTraits _ | .noLeg _ _ | .notShared _ _ => True
  | _ => False

section Faults

variable {α β : Type} {E : Fault → Prop}

/-- A formula of a fixed shape fails in one way only: the matrix has another shape. -/
theorem Formula.shaped_meets {γ δ : Type} {read : Grid α → Option γ} {f : γ → Grid δ} {m : Grid α}
    (hE : E .wrongShape) : Meets E (fun _ => True) (shaped read f m) := by
  unfold shaped
  split
  · exact .ok trivial
  · exact .error hE

/-- A formula of two matrices of a fixed shape fails in this way only, too. -/
theorem Formula.shaped₂_meets {γ δ : Type} {read : Grid α → Option γ} {f : γ → γ → Grid δ}
    {m n : Grid α} (hE : E .wrongShape) : Meets E (fun _ => True) (shaped₂ read f m n) := by
  unfold shaped₂
  split
  · exact .ok trivial
  · exact .error hE

/-- A formula fails for the shape or the number of its arguments only. -/
theorem Formula.apply_meets [Scalar β] (hshape : E .wrongShape) (harity : E .wrongArity)
    (f : Formula) (eps : β) (ms : List (Grid β)) :
    Meets E (fun _ => True) (f.apply eps ms) := by
  unfold apply
  split
  all_goals first
    | exact shaped_meets hshape
    | exact shaped₂_meets hshape
    | exact .ok trivial
    | exact .error harity

/-- Data fails where its numbers or its expressions do. -/
theorem Datum.apply_meets [Scalar α] {f : Transform α}
    (hf : ∀ {β : Type} [Scalar β] (c : α → β) (m : Grid β), Meets E (fun _ => True) (f c m))
    (d : Datum α) : Meets E (fun _ => True) (d.apply f) := by
  cases d with
  | numeric m => exact Meets.map (hf id m) fun _ => id
  | symbolic s => exact Meets.map (hf .const s.slots) fun _ => id

variable [Ground α] (s : Settings α)

/-- What a formula has checked for symmetry is found, unless the shape is wrong. -/
theorem Formula.skewInput_meets (hshape : E .wrongShape) {f : Formula} {part : Transform α}
    (hpart : f.skewInput? = some @part) (d : Datum α) :
    Meets E (fun _ => True) (d.apply part) := by
  unfold skewInput? at hpart
  split at hpart
  · cases hpart
    exact Datum.apply_meets (fun _ _ => .ok trivial) d
  · cases hpart
    exact Datum.apply_meets (fun _ _ => shaped_meets hshape) d
  · cases hpart

/-- The check of symmetry fails by the shape or by the entries. -/
theorem Settings.checkSkew_meets (hshape : E .wrongShape) (hskew : E .notSkew) (f : Formula)
    (d : Datum α) : Meets E (fun _ => True) (s.checkSkew f d) := by
  unfold checkSkew
  split
  · next part _ hpart =>
    refine (Formula.skewInput_meets hshape hpart d).bind fun d' _ => ?_
    split
    · split
      · exact .ok trivial
      · exact .error hskew
    · exact .ok trivial
  · exact .ok trivial

/-- No chain fails for want of a chain. -/
theorem Settings.applyRoute_meets (route : Route Formula) (h : Held α) :
    Meets (fun e => ¬ e.OfRoute) (fun _ => True) (s.applyRoute route h) := by
  -- a rule may fail over its data or a check, never for want of a route
  have hformula (f : Formula) (k : Held α) :
      Meets (fun e => ¬ e.OfRoute) (fun _ => True) (s.applyFormula f k) := by
    by_cases hitself : f = .itself
    · subst hitself
      exact .ok trivial
    by_cases hcopy : f = .copy
    · subst hcopy
      exact .ok trivial
    rw [applyFormula_eq hitself hcopy]
    exact .bind (Datum.apply_meets (fun _ _ => Formula.apply_meets id id f _ _) k.datum) fun _ _ =>
      .bind (s.checkSkew_meets id id f k.datum) fun _ _ => .ok trivial
  have hlink (l : Link Formula) (k : Held α) :
      Meets (fun e => ¬ e.OfRoute) (fun _ => True) (s.applyLink k l) := by
    cases l with
    | copy => exact .ok trivial
    | rule f => exact hformula f k
  unfold applyRoute
  generalize route.links = links
  induction links generalizing h with
  | nil => exact .ok trivial
  | cons l links ih =>
    simp only [List.foldlM_cons]
    exact (hlink l h).bind fun k _ => ih k

end Faults

/-! ## The classes of elements -/

/-- If the change makes an element, its class satisfies `P`. -/
def Change.Makes {α : Type} (P : ConcreteClass → Prop) : Change α → Prop
  | .bindElement _ c _ => P c
  | _ => True

/-- The class has a tag, and some class holds its elements. -/
def Catalog.Tagged (c : Catalog) (cls : ConcreteClass) : Prop :=
  ∃ t, cls.tag = some t ∧ c.Holds t

/-- Tables only grow, so a class keeps its tag. -/
theorem Catalog.Tagged.mono {c c' : Catalog} {cls : ConcreteClass} (h : c.Tagged cls)
    (hgrows : c.Grows c') : c'.Tagged cls := by
  obtain ⟨t, ht, hheld⟩ := h
  exact ⟨t, ht, hgrows.holds t hheld⟩

/-- A class that has elements has a family, and its elements have its tag. -/
theorem ElementClass.concrete_eq_ok {k : ElementClass} {c : ConcreteClass}
    (h : k.concrete = .ok c) : k.family.isSome ∧ c.tag = k.tag := by
  unfold concrete at h
  split at h
  · next f hf =>
    cases h
    exact ⟨by rw [hf]; rfl, rfl⟩
  · cases h

/-- A class found by name has a tag that is held. -/
theorem Catalog.Wired.tagged_of_named {c : Catalog} (hc : c.Wired) {name : String}
    {k : ElementClass} {cls : ConcreteClass} (hk : c.classNamed name = .ok k)
    (hcls : k.concrete = .ok cls) : c.Tagged cls := by
  obtain ⟨hfamily, htag⟩ := ElementClass.concrete_eq_ok hcls
  obtain ⟨t, ht⟩ := Option.isSome_iff_exists.1 (hc.tagged name k hk hfamily)
  exact ⟨t, htag.trans ht, hc.held name k hk t ht⟩

/-- A class found by key has a tag that is held. -/
theorem Catalog.Wired.tagged_of_holder {c : Catalog} (hc : c.Wired) {key : Key}
    {k : ElementClass} {cls : ConcreteClass} (hk : c.holder key = .ok k)
    (hcls : k.concrete = .ok cls) : c.Tagged cls := by
  cases key with
  | tag t =>
    unfold Catalog.holder at hk
    cases hget : c.holders.get? t with
    | none => simp only [hget] at hk; cases hk
    | some k' =>
      simp only [hget] at hk
      cases hk
      obtain ⟨-, htag⟩ := ElementClass.concrete_eq_ok hcls
      exact ⟨t, htag.trans (hc.tag t _ hget), _, hget⟩
  | text s => cases hk
  | missing => cases hk

namespace Store

variable {α : Type} {s : Store α}

/-- A named element is an element of the store. -/
theorem subject_of_named {r : String} {a : Subject α} (ha : s.named r = .ok a) :
    ∃ e, s.elementId r = .ok e ∧ s.subject e = .ok a :=
  exists_of_bind_eq_ok ha

/-- The content of an element has the class of its cell. -/
theorem cell_of_subject {e : ElementId} {a : Subject α} (ha : s.subject e = .ok a) :
    ∃ c, s.cell e = .ok c ∧ c.cls = a.cls := by
  obtain ⟨c, x, hc, -, rfl⟩ := subject_eq_ok_iff.1 ha
  exact ⟨c, cell_eq_ok_iff.2 hc, rfl⟩

end Store

namespace World

variable {α : Type} {w : World α}

/-- The tags of all elements are held. -/
def TagsElements (w : World α) : Prop :=
  ∀ e c, w.store.cell e = .ok c → w.catalog.Tagged c.cls

/-- The class of an element has a tag that is held. -/
theorem TagsElements.subject (hw : w.TagsElements) {e : ElementId} {a : Subject α}
    (ha : w.store.subject e = .ok a) : w.catalog.Tagged a.cls := by
  obtain ⟨c, hc, hcls⟩ := Store.cell_of_subject ha
  exact hcls ▸ hw e c hc

/-- The class of a named element has a tag that is held. -/
theorem TagsElements.named (hw : w.TagsElements) {r : String} {a : Subject α}
    (ha : w.store.named r = .ok a) : w.catalog.Tagged a.cls := by
  obtain ⟨e, -, ha⟩ := Store.subject_of_named ha
  exact hw.subject ha

variable [Ground α]

/-- **Plans.** An element is made of a class of the catalog, or of the class of another element. -/
theorem plan_makes (hc : w.catalog.Wired) (hw : w.TagsElements) (x : Step α) :
    Ensures w.catalog.registry (fun p => p.change.Makes w.catalog.Tagged) (w.plan x) := by
  cases x with
  | new dst cls x =>
    exact .look fun k hk => .look fun c hcls => .bind (w.makeData_asks _ _) fun _ =>
      .pure (hc.tagged_of_named hk hcls)
  | identity dst cls type =>
    exact .look fun k hk => .look fun c hcls => .pure (hc.tagged_of_named hk hcls)
  | random dst cls x y z t =>
    exact .look fun k hk => .look fun c hcls => .read fun _ => .read fun _ =>
      .pure (hc.tagged_of_named hk hcls)
  -- the class is looked up again by name, after the conversion
  | exp dst cls x =>
    refine .look fun k hk => .read fun v => .bind_of ?_ fun p hp => .pure (hc.tagged_of_named hk hp)
    unfold Context.exp
    split
    · exact .throw _
    · exact .bind (w.context.convert_asks _ _ _) fun _ => .look fun c hcls => .read fun _ =>
        .pure hcls
  | log dst a =>
    refine .read fun x => ?_
    cases x with
    | element e => exact .read fun _ => .bind (w.context.convert_asks _ _ _) fun _ => .pure trivial
    | matrix m => exact .read fun _ => .read fun _ => .pure trivial
  | mul dst a x =>
    refine .read fun y => ?_
    cases y with
    | element e =>
      exact .look fun s hs => .read fun _ => .bind (w.context.convert_asks _ _ _) fun _ =>
        .bind (w.context.mul_asks _ _) fun _ => .pure (hw.subject hs)
    | matrix m => exact .read fun _ => .pure trivial
  | mulInPlace a x =>
    refine .read fun y => ?_
    cases y with
    | element e =>
      exact .read fun _ => .read fun _ => .bind (w.context.mul_asks _ _) fun _ => .pure trivial
    | matrix m => exact .read fun _ => .pure trivial
  | inverse dst a =>
    exact .look fun s hs => .bind (w.context.convert_asks _ _ _) fun _ => .read fun _ =>
      .pure (hw.named hs)
  | canonical dst a =>
    refine .read fun _ => .read fun _ => .read fun b => ?_
    cases b with
    | true => exact .pure trivial
    | false =>
      exact .read fun _ => .look fun k hk => .look fun c hcls =>
        .bind (w.context.convert_asks _ _ _) fun _ => .pure (hc.tagged_of_holder hk hcls)
  | cast dst a type =>
    refine .look fun s hs => ?_
    cases type with
    | none => exact .throw _
    | some t => exact .read fun _ => .pure (hw.named hs)
  | poke m p x =>
    refine .read fun y => ?_
    cases y with
    | matrix m => exact .read fun _ => .read fun _ => .pure trivial
    | element e => exact .throw _
  | coordinates | convert =>
    exact .read fun _ => .bind (w.context.convert_asks _ _ _) fun _ => .pure trivial
  | assign dst a b =>
    exact .read fun _ => .read fun _ => .read fun _ =>
      .bind (w.context.convert_asks _ _ _) fun _ => .pure trivial
  | getData | declare => exact .read fun _ => .pure trivial
  | rotationMatrix | angle | shadow | setIdentity | hat | vee | toCanonical | fromCanonical =>
    exact .read fun _ => .read fun _ => .pure trivial
  | invert => exact .read fun _ => .read fun _ => .read fun _ => .pure trivial
  | setData | setMatrix | setRandom =>
    exact .read fun _ => .read fun _ => .read fun _ => .read fun _ => .pure trivial
  | ask q => exact .bind (w.answer_asks q) fun _ => .pure trivial
  | configure => exact .pure trivial
  | drainLog => exact fun r => ⟨.refl, fun _ h => by cases h; trivial⟩

/-- A change keeps the classes of all elements, apart from the element that it makes. -/
theorem cls_of_apply {c : Change α} {e : ElementId} {d : ElementCell}
    (hd : (w.apply c).store.cell e = .ok d) :
    (∃ d', w.store.cell e = .ok d' ∧ d'.cls = d.cls) ∨ ∃ dst h, c = .bindElement dst d.cls h := by
  have hplace (h : Held α) : (w.store.place h).2.elements = w.store.elements := by
    unfold Store.place
    cases h.home <;> rfl
  -- new data leaves the class of an element as it was
  have hreplace (e' : ElementId) (h : Held α)
      (hd : ((w.store.place h).2.elements.modify e'.index
        fun k => { k with data := (w.store.place h).1 })[e.index]? = some d) :
      ∃ d', w.store.cell e = .ok d' ∧ d'.cls = d.cls := by
    rw [hplace, Array.getElem?_modify] at hd
    obtain ⟨d', hd', he⟩ : ∃ d', w.store.elements[e.index]? = some d' ∧ d'.cls = d.cls := by
      split at hd
      · obtain ⟨d', hd', rfl⟩ := Option.map_eq_some_iff.1 hd
        exact ⟨d', hd', rfl⟩
      · exact ⟨d, hd, rfl⟩
    exact ⟨d', Store.cell_eq_ok_iff.2 hd', he⟩
  rw [Store.cell_eq_ok_iff] at hd
  cases c with
  | bindMatrix dst h =>
    have hd : (w.store.place h).2.elements[e.index]? = some d := hd
    rw [hplace] at hd
    exact .inl ⟨d, Store.cell_eq_ok_iff.2 hd, rfl⟩
  | bindElement dst cls h =>
    have hd : ((w.store.place h).2.elements.push ⟨cls, (w.store.place h).1⟩)[e.index]? = some d :=
      hd
    rw [hplace, Array.getElem?_push] at hd
    split at hd
    · -- the last element is the one that was made
      cases hd
      exact .inr ⟨dst, h, rfl⟩
    · exact .inl ⟨d, Store.cell_eq_ok_iff.2 hd, rfl⟩
  | replaceData e' h => exact .inl (hreplace e' h hd)
  | assign dst e' h => exact .inl (hreplace e' h hd)
  | _ => exact .inl ⟨d, Store.cell_eq_ok_iff.2 hd, rfl⟩

/-- The tags of all elements are held after a change that keeps what the catalog holds. -/
theorem TagsElements.apply (hw : w.TagsElements) {c : Change α}
    (hc : c.Makes w.catalog.Tagged) (hgrows : w.catalog.Grows (w.apply c).catalog) :
    (w.apply c).TagsElements := by
  intro e d hd
  obtain ⟨d', hd', hcls⟩ | ⟨dst, h, rfl⟩ := cls_of_apply hd
  · exact hcls ▸ (hw e d' hd').mono hgrows
  · exact hc

end World

/-! ## Runs -/

namespace Session

variable {α : Type} {s : Session α} {x : Step α} {t : Tag} {cls : ElementClass}

/-- The catalog is wired, remembered chains are short, and the tags of all elements are held. -/
structure Wired (s : Session α) : Prop where
  catalog : s.world.catalog.Wired
  router : s.router.Short
  elements : s.world.TagsElements

/-- Before the first step there are the classes that are built in, and no elements. -/
theorem wired_empty (settings : Settings α) :
    Session.Wired (⟨{ settings := settings }, {}⟩ : Session α) :=
  ⟨Catalog.wired_initial, Router.short_of_empty rfl, fun _ _ => nofun⟩

variable [Ground α]

/-- **Steps.** Whatever a step does, the session stays wired. -/
theorem Wired.step (hs : s.Wired) (x : Step α) : (s.step x).2.Wired := by
  have hrouter : (s.step x).2.router.Short :=
    forall_remembered_step (fun _ _ _ _ => Registry.links_of_resolve) x hs.router
  obtain hx | ⟨d, rfl⟩ := x.declare_cases
  · -- a step that declares nothing keeps the tables, and makes elements of their classes
    have hcatalog := (s.step_of_not_declare hx).1
    refine ⟨hcatalog ▸ hs.catalog, hrouter, ?_⟩
    obtain ⟨-, hmakes⟩ := World.plan_makes hs.catalog hs.elements x s.router
    obtain ⟨e, r, -, hstep⟩ | ⟨p, r, hplan, hstep⟩ := s.step_cases x
    · rw [hstep]
      exact hs.elements
    · rw [hplan] at hmakes
      rw [hstep] at hcatalog ⊢
      refine hs.elements.apply (hmakes p rfl) ?_
      rw [show (s.world.apply p.change).catalog = s.world.catalog from hcatalog]
      exact ⟨fun _ => id, fun _ => id⟩
  · -- a declaration fails and keeps everything, or it extends the tables
    cases h : s.world.catalog.declare d with
    | error e => rw [step_declare_of_error h]; exact hs
    | ok r =>
      have haccepted := Catalog.accepted_of_declare h
      rw [step_declare_of_ok h] at hrouter ⊢
      exact ⟨haccepted.wired hs.catalog, hrouter,
        fun e c hc => (hs.elements e c hc).mono haccepted.grows⟩

/-- **Run.** Runs keep the tables wired. -/
theorem Wired.run (hs : s.Wired) (xs : List (Step α)) : (s.run xs).2.Wired :=
  run_invariant (P := fun _ => True) (fun _ x _ hs => hs.step x) xs s (fun _ _ => trivial) hs

/-! ### Who holds a tag -/

/-- The step defines a class for the tag, and the class is `cls`. -/
def Defines (s : Session α) (x : Step α) (t : Tag) (cls : ElementClass) : Prop :=
  ∃ name tag parent p r, x = .declare (.elementClass name (some tag) parent) ∧
    s.world.catalog.declare (.elementClass name (some tag) parent) = .ok r ∧
    s.world.catalog.key tag = .tag t ∧ s.world.catalog.classNamed parent = .ok p ∧
    cls = ⟨name, p.family, some t⟩

/-- No step of the run defines a class for the tag. -/
def NeverDefines (s : Session α) (xs : List (Step α)) (t : Tag) : Prop :=
  ∀ ys y zs cls, xs = ys ++ y :: zs → ¬ (s.run ys).2.Defines y t cls

/-- Of the steps of the run that define a class for the tag the last one defines `cls`. -/
def DefinesLast (s : Session α) (xs : List (Step α)) (t : Tag) (cls : ElementClass) : Prop :=
  ∃ ys y zs, xs = ys ++ y :: zs ∧ (s.run ys).2.Defines y t cls ∧
    ((s.run ys).2.step y).2.NeverDefines zs t

/-- A step that defines nothing for the tag leaves its holder. -/
theorem holder_iff_of_not_defines (hno : ∀ c, ¬ s.Defines x t c)
    (h : (s.step x).2.world.catalog.holders = s.world.catalog.holders) :
    (s.step x).2.world.catalog.holders.get? t = some cls ↔ s.Defines x t cls ∨
      (∀ c, ¬ s.Defines x t c) ∧ s.world.catalog.holders.get? t = some cls := by
  rw [h]
  exact ⟨fun hget => .inr ⟨hno, hget⟩, fun hor => (hor.resolve_left (hno cls)).2⟩

omit [Ground α] in
/-- A definition that is accepted defines one class for one tag. -/
theorem defines_iff_of_accepted {name tag parent : String} {p : ElementClass} {u : Tag}
    {r : Declared} (h : s.world.catalog.declare (.elementClass name (some tag) parent) = .ok r)
    (hp : s.world.catalog.classNamed parent = .ok p) (hu : s.world.catalog.key tag = .tag u) :
    s.Defines (.declare (.elementClass name (some tag) parent)) t cls ↔
      t = u ∧ cls = ⟨name, p.family, some u⟩ := by
  constructor
  · rintro ⟨_, _, _, p', r', hd, -, hu', hp', rfl⟩
    cases hd
    obtain rfl : p = p' := Except.ok.inj (hp.symm.trans hp')
    obtain rfl : u = t := Key.tag.inj (hu.symm.trans hu')
    exact ⟨rfl, rfl⟩
  · rintro ⟨rfl, rfl⟩
    exact ⟨name, tag, parent, p, r, rfl, h, hu, hp, rfl⟩

/-- A step leaves the holder of a tag alone, unless it defines a class for the tag. -/
theorem holder_step_iff (s : Session α) (x : Step α) :
    (s.step x).2.world.catalog.holders.get? t = some cls ↔ s.Defines x t cls ∨
      (∀ c, ¬ s.Defines x t c) ∧ s.world.catalog.holders.get? t = some cls := by
  obtain hx | ⟨d, rfl⟩ := x.declare_cases
  · have hcatalog := (s.step_of_not_declare hx).1
    refine holder_iff_of_not_defines ?_ (congrArg Catalog.holders hcatalog)
    rintro c ⟨_, _, _, _, _, rfl, -⟩
    exact hx _ rfl
  cases h : s.world.catalog.declare d with
  | error e =>
    refine holder_iff_of_not_defines ?_ (by rw [step_declare_of_error h])
    rintro c ⟨_, _, _, _, r, hd, hok, -⟩
    cases hd
    rw [h] at hok
    cases hok
  | ok r =>
    have hstep := congrArg (fun s => s.world.catalog.holders) (step_declare_of_ok (s := s) h)
    cases Catalog.accepted_of_declare h with
    -- the one declaration that sets a holder
    | @holder name tag parent p u _ hp hu =>
      rw [hstep]
      show (s.world.catalog.holders.insert u ⟨name, p.family, some u⟩).get? t = some cls ↔ _
      simp only [Table.get?_insert, defines_iff_of_accepted h hp hu]
      by_cases htu : t = u
      · simp [htu, eq_comm]
      · simp [htu]
    | tag | traits | legs | direct | subclass =>
      refine holder_iff_of_not_defines ?_ hstep
      rintro c ⟨_, _, _, _, _, hd, -⟩
      cases hd

/-! ### What a run defines -/

/-- Whether a run ever defines a class for a tag, by its first step and the rest. -/
theorem neverDefines_cons {xs : List (Step α)} :
    s.NeverDefines (x :: xs) t ↔
      (∀ c, ¬ s.Defines x t c) ∧ (s.step x).2.NeverDefines xs t := by
  constructor
  · intro h
    exact ⟨fun c => h [] x xs c rfl, fun ys y zs c hxs => h (x :: ys) y zs c (hxs ▸ rfl)⟩
  · rintro ⟨hx, hxs⟩ ys y zs c hsplit
    cases ys with
    | nil =>
      cases hsplit
      exact hx c
    | cons x' ys =>
      cases hsplit
      exact hxs ys y zs c rfl

/-- Which class a run defines last for a tag: the rest does, or the first step does and the rest
never. -/
theorem definesLast_cons {xs : List (Step α)} :
    s.DefinesLast (x :: xs) t cls ↔ (s.step x).2.DefinesLast xs t cls ∨
      s.Defines x t cls ∧ (s.step x).2.NeverDefines xs t := by
  constructor
  · rintro ⟨ys, y, zs, hsplit, hy, hzs⟩
    cases ys with
    | nil =>
      cases hsplit
      exact .inr ⟨hy, hzs⟩
    | cons x' ys =>
      cases hsplit
      exact .inl ⟨ys, y, zs, rfl, hy, hzs⟩
  · rintro (⟨ys, y, zs, rfl, hy, hzs⟩ | ⟨hx, hxs⟩)
    · exact ⟨x :: ys, y, zs, rfl, hy, hzs⟩
    · exact ⟨[], x, xs, rfl, hx, hxs⟩

/-- **Who holds a tag.** It is the class that the run defines last for the tag, and without any the
class that held it before. -/
theorem holder_run_iff (s : Session α) (xs : List (Step α)) :
    (s.run xs).2.world.catalog.holders.get? t = some cls ↔ s.DefinesLast xs t cls ∨
      s.NeverDefines xs t ∧ s.world.catalog.holders.get? t = some cls := by
  -- by the first step: what it defines is last unless a later one defines anew
  induction xs generalizing s with
  | nil =>
    have hnever : s.NeverDefines [] t := by
      intro ys y zs c h
      cases ys <;> cases h
    have hnone : ¬ s.DefinesLast [] t cls := by
      rintro ⟨ys, y, zs, h, -⟩
      cases ys <;> cases h
    exact ⟨fun h => .inr ⟨hnever, h⟩, fun h => (h.resolve_left hnone).2⟩
  | cons x xs ih =>
    refine (ih (s.step x).2).trans ?_
    rw [holder_step_iff, definesLast_cons, neverDefines_cons]
    grind

/-! ### Conversions between classes -/

/-- The step takes an element of a class with the tag `t` to the encoding of the tag `u`: it makes
an element of another class from it, assigns it to an element of another class, or reads its
coordinates. -/
inductive Converts (w : World α) : Step α → Tag → Tag → Prop
  | new {dst cls b : String} {x : Subject α} {k : ElementClass} {t u : Tag}
      (hx : w.store.named b = .ok x) (ht : x.cls.tag = some t)
      (hk : w.catalog.classNamed cls = .ok k) (hu : k.tag = some u) :
      Converts w (.new dst cls (some (.register b))) t u
  | assign {dst a b : String} {x y : Subject α} {t u : Tag}
      (hx : w.store.named b = .ok x) (ht : x.cls.tag = some t)
      (hy : w.store.named a = .ok y) (hu : y.cls.tag = some u) :
      Converts w (.assign dst a b) t u
  | coordinates {dst a encoding : String} {x : Subject α} {t u : Tag}
      (hx : w.store.named a = .ok x) (ht : x.cls.tag = some t)
      (hu : w.catalog.keyOfClassOrTag encoding = .tag u) (hheld : w.catalog.Holds u) :
      Converts w (.coordinates dst a encoding) t u

/-- The computation does not fail for want of a chain when it starts from the router. -/
def Unobstructed {β : Type} (r : Router Formula) (m : Asking β) : Prop :=
  Meets (fun e => ¬ e.OfRoute) (fun _ => True) (m.run r).1

/-- What is known to be read does not stand in the way. -/
theorem Unobstructed.read {β γ : Type} {r : Router Formula} {x : Except Fault β}
    {f : β → Asking γ} (hx : Meets (fun e => ¬ e.OfRoute) (fun b => x = .ok b) x)
    (hf : ∀ b, x = .ok b → Unobstructed r (f b)) : Unobstructed r (liftM x >>= f) := by
  unfold Unobstructed
  rw [run_bind, run_lift]
  cases x with
  | error e =>
    cases hx with
    | error he => exact .error he
  | ok b => exact hf b rfl

/-- What is done with the answer does not stand in the way. -/
theorem Unobstructed.bind_pure {β γ : Type} {r : Router Formula} {m : Asking β} {f : β → γ}
    (hm : Unobstructed r m) : Unobstructed r (m >>= fun b => pure (f b)) := by
  unfold Unobstructed at hm ⊢
  rw [run_bind]
  rcases h : m.run r with ⟨e | b, r'⟩
  · rw [h] at hm
    cases hm with
    | error he => exact .error he
  · exact .ok trivial

/-- A conversion fails by its formulas only, once there is a route. -/
theorem unobstructed_convert (ctx : Context α) (h : Held α) {r : Router Formula}
    {src dst : Key} {route : Route Formula} (hr : r.answer ctx.registry src dst = .ok route) :
    Unobstructed r (ctx.convert h src dst) := by
  unfold Unobstructed Context.convert
  rw [run_bind]
  have hrun : ((ctx.route src dst).run r).1 = .ok route := hr
  rcases hroute : (ctx.route src dst).run r with ⟨x, r'⟩
  rw [hroute] at hrun
  obtain rfl : x = .ok route := hrun
  exact ctx.settings.applyRoute_meets route h

omit [Ground α] in
/-- Between two held tags with one canonical tag there is a route, and it has one link or two. -/
theorem Wired.answer (hs : s.Wired) {t u : Tag} (ht : s.world.catalog.Holds t)
    (hu : s.world.catalog.Holds u) (hshare : s.world.catalog.registry.Share t u) :
    ∃ route, s.router.answer s.world.catalog.registry (.tag t) (.tag u) = .ok route ∧
      (route.links.length = 1 ∨ route.links.length = 2) :=
  hs.router.answer (hs.catalog.equipped t ht) (hs.catalog.equipped u hu) hshare

/-- Data for a class with such a tag does not fail for want of a route. -/
theorem Wired.unobstructed_dataFor (hs : s.Wired) {t u : Tag} {x : Subject α} {c : ConcreteClass}
    (ht : x.cls.tag = some t) (hheldt : s.world.catalog.Holds t) (hu : c.tag = some u)
    (hheldu : s.world.catalog.Holds u) (hshare : s.world.catalog.registry.Share t u) :
    Unobstructed s.router (s.world.context.dataFor c x) := by
  obtain ⟨route, hroute, -⟩ := hs.answer hheldt hheldu hshare
  have hkeys : s.router.answer s.world.context.registry x.cls.key c.key = .ok route := by
    rw [ConcreteClass.key, ConcreteClass.key, ht, hu]
    exact hroute
  exact unobstructed_convert s.world.context x.held hkeys

/-- **Conversions.** Between two classes with a common canonical encoding no step fails for want of
a chain. -/
theorem Wired.unobstructed (hs : s.Wired) {t u : Tag} (h : Converts s.world x t u)
    (hshare : s.world.catalog.registry.Share t u) : Unobstructed s.router (s.world.plan x) := by
  -- the tag of an element has a holder, and holders have traits and legs
  have hheld {r : String} {a : Subject α} {v : Tag} (ha : s.world.store.named r = .ok a)
      (hv : a.cls.tag = some v) : s.world.catalog.Holds v := by
    obtain ⟨v', hv', hheld⟩ := hs.elements.named ha
    obtain rfl : v = v' := Option.some.inj (hv.symm.trans hv')
    exact hheld
  cases h with
  | @new dst cls b a k _ _ ha ht hk hu =>
    refine .read (.of_eq_ok hk hk) fun k' hk' => ?_
    obtain rfl : k = k' := Except.ok.inj (hk.symm.trans hk')
    refine .read ?_ fun c hc => .bind_pure ?_
    · unfold ElementClass.concrete
      split
      · exact .ok rfl
      · exact .error id
    have helement := World.elementOf?_of_named ha
    unfold World.makeData
    refine .read (.of_eq_ok helement helement) fun o ho => ?_
    obtain rfl : some a = o := Except.ok.inj (helement.symm.trans ho)
    have htag := (ElementClass.concrete_eq_ok hc).2.trans hu
    exact hs.unobstructed_dataFor ht (hheld ha ht) htag (hs.catalog.held _ _ hk _ hu) hshare
  | @assign dst a b y z _ _ hy ht hz hu =>
    obtain ⟨e, hid, hsubject⟩ := Store.subject_of_named hz
    refine .read (.of_eq_ok hid hid) fun e' he' => ?_
    obtain rfl : e = e' := Except.ok.inj (hid.symm.trans he')
    refine .read (.of_eq_ok hsubject hsubject) fun z' hz' => ?_
    obtain rfl : z = z' := Except.ok.inj (hsubject.symm.trans hz')
    refine .read (.of_eq_ok hy hy) fun y' hy' => ?_
    obtain rfl : y = y' := Except.ok.inj (hy.symm.trans hy')
    exact .bind_pure (hs.unobstructed_dataFor ht (hheld hy ht) hu (hheld hz hu) hshare)
  | @coordinates dst a encoding y _ _ hy ht hu hheldu =>
    refine .read (.of_eq_ok hy hy) fun y' hy' => ?_
    obtain rfl : y = y' := Except.ok.inj (hy.symm.trans hy')
    obtain ⟨route, hroute, -⟩ := hs.answer (hheld hy ht) hheldu hshare
    have hkeys : s.router.answer s.world.context.registry y.cls.key
        (s.world.catalog.keyOfClassOrTag encoding) = .ok route := by
      rw [ConcreteClass.key, ht, hu]
      exact hroute
    exact .bind_pure (unobstructed_convert s.world.context y.held hkeys)

/-- A step whose plan is unobstructed does not fail for want of a route. -/
theorem not_ofRoute_of_unobstructed (h : Unobstructed s.router (s.world.plan x)) {e : Fault}
    (he : (s.step x).1 = .error e) : ¬ e.OfRoute := by
  unfold Unobstructed at h
  obtain ⟨e', r, hplan, hstep⟩ | ⟨p, r, hplan, hstep⟩ := s.step_cases x
  · rw [hstep] at he
    cases he
    rw [hplan] at h
    cases h with
    | error h => exact h
  · rw [hstep] at he
    cases he

/-- **Classes and their tags.** In every state of a run, whatever its steps are and whichever of
them fail:

- the class that holds a tag is the one that was defined last for it, or without any the one that
  holds it from the start, and the tag has traits and both legs;
- the tag of every class and of every element is held by some class;
- between two tags that are held and name the same canonical encoding the router answers a chain of
  one or two links;
- no step that takes an element from one class to another fails for want of a chain, if the tags of
  the two classes name the same canonical encoding. -/
theorem holders_of_run (settings : Settings α) (xs : List (Step α)) :
    let s₀ : Session α := ⟨{ settings := settings }, {}⟩
    let s := (s₀.run xs).2
    (∀ t cls, s.world.catalog.holders.get? t = some cls ↔ s₀.DefinesLast xs t cls ∨
      s₀.NeverDefines xs t ∧ Catalog.initial.holders.get? t = some cls) ∧
    (∀ t cls, s.world.catalog.holders.get? t = some cls →
      cls.tag = some t ∧ s.world.catalog.registry.Equipped t) ∧
    (∀ name cls t, s.world.catalog.classNamed name = .ok cls → cls.tag = some t →
      s.world.catalog.Holds t) ∧
    (∀ e c, s.world.store.cell e = .ok c → s.world.catalog.Tagged c.cls) ∧
    (∀ t u, s.world.catalog.Holds t → s.world.catalog.Holds u →
      s.world.catalog.registry.Share t u →
      ∃ route, s.router.answer s.world.catalog.registry (.tag t) (.tag u) = .ok route ∧
        (route.links.length = 1 ∨ route.links.length = 2)) ∧
    ∀ x t u, Converts s.world x t u → s.world.catalog.registry.Share t u →
      ∀ e, (s.step x).1 = .error e → ¬ e.OfRoute := by
  intro s₀ s
  -- all of it is read off the tables as a run leaves them
  have hs : s.Wired := (wired_empty settings).run xs
  refine ⟨fun t cls => holder_run_iff s₀ xs, fun t cls hheld => ?_, fun name cls t hk => ?_,
    hs.elements, fun t u => hs.answer, fun x t u h hshare e => ?_⟩
  · exact ⟨hs.catalog.tag t cls hheld, hs.catalog.equipped t ⟨cls, hheld⟩⟩
  · exact hs.catalog.held name cls hk t
  · exact not_ofRoute_of_unobstructed (hs.unobstructed h hshare)

/-- A tag gets a class once it has legs, and then another one. A definition before and one after
that fail. -/
def redefinedRun : List (Step Float) :=
  [.declare (.tag "HalfRep" true),
   .declare (.traits "HalfRep" [4, 1] none),
   .declare (.elementClass "Early" (some "HalfRep") "Quat"),
   .declare (.legs "HalfRep" .quaternionToMatrix .quaternionOfMatrix),
   .declare (.elementClass "First" (some "HalfRep") "Quat"),
   .new "a" "First" none,
   .declare (.elementClass "Second" (some "HalfRep") "Quat"),
   .declare (.elementClass "Second" (some "NoRep") "Quat"),
   .declare (.traits "HalfRep" [4, 1] none),
   .new "b" "Euler" none]

/-- The tag belongs to the class that was defined last. It has its traits and its legs, routes to
Euler angles, and an assignment between the two is not obstructed. -/
theorem holders_after_redefinedRun :
    let s := (initial.run redefinedRun).2
    let half : Tag := ⟨6, "HalfRep", true⟩
    initial.DefinesLast redefinedRun half ⟨"Second", some .quaternion, some half⟩ ∧
    s.world.catalog.registry.Equipped half ∧
    (s.world.catalog.registry.Share half .euler ∧
      ∃ route, s.router.answer s.world.catalog.registry (.tag half) (.tag .euler) = .ok route ∧
        (route.links.length = 1 ∨ route.links.length = 2)) ∧
    (Converts s.world (.assign "b" "b" "a") half .euler ∧
      ∀ e, (s.step (.assign "b" "b" "a")).1 = .error e → ¬ e.OfRoute) := by
  intro s half
  have hnames : Catalog.checkName "HalfRep" = .ok () ∧ Catalog.checkName "Early" = .ok () ∧
      Catalog.checkName "First" = .ok () ∧ Catalog.checkName "Second" = .ok () := by
    simp [Catalog.checkName]
  obtain ⟨hhalf, hearly, hfirst, hsecond⟩ := hnames
  -- names are checked character by character, which is done here once and for all
  have hstate : s.world.catalog.holders.get? half =
        some ⟨"Second", some .quaternion, some half⟩ ∧
      s.world.catalog.registry.traits.get? half = some ⟨[4, 1], .matrix⟩ ∧
      s.world.catalog.registry.traits.get? .euler = some ⟨[3, 1], .matrix⟩ ∧
      (∃ x, s.world.store.named "a" = .ok x ∧ x.cls.tag = some half) ∧
      ∃ x, s.world.store.named "b" = .ok x ∧ x.cls.tag = some .euler := by
    simp only [s, redefinedRun, run, step, World.plan, Catalog.declare, hhalf, hearly, hfirst,
      hsecond]
    exact ⟨rfl, rfl, rfl, ⟨_, rfl, rfl⟩, ⟨_, rfl, rfl⟩⟩
  obtain ⟨hholder, hrhalf, hreuler, ⟨x, hx, hxtag⟩, y, hy, hytag⟩ := hstate
  obtain ⟨hlast, hequipped, -, helements, hroutes, hsteps⟩ := holders_of_run .initial redefinedRun
  have hshare : s.world.catalog.registry.Share half .euler := ⟨_, _, hrhalf, hreuler, rfl⟩
  have hheld : s.world.catalog.Holds half := ⟨_, hholder⟩
  have hnever : Catalog.initial.holders.get? half = none := rfl
  have hconverts : Converts s.world (.assign "b" "b" "a") half .euler := .assign hx hxtag hy hytag
  have hheldEuler : s.world.catalog.Holds .euler := by
    obtain ⟨e, -, hsubject⟩ := Store.subject_of_named hy
    obtain ⟨c, hc, hcls⟩ := Store.cell_of_subject hsubject
    obtain ⟨t, ht, hheld⟩ := helements e c hc
    obtain rfl : Tag.euler = t := Option.some.inj (hytag.symm.trans (hcls ▸ ht))
    exact hheld
  refine ⟨((hlast half _).1 hholder).resolve_right ?_, (hequipped half _ hholder).2,
    ⟨hshare, hroutes half .euler hheld hheldEuler hshare⟩,
    hconverts, hsteps _ half .euler hconverts hshare⟩
  rintro ⟨-, hinitial⟩
  rw [hnever] at hinitial
  cases hinitial

end Session

end Attitude
