import Attitude.Proofs.Elements.Closure
import Attitude.Proofs.Session.Objects
import Attitude.Proofs.Session.Runs

/-!
# Properties that plans carry on

Data enters a session as numbers or as expressions in symbols, and everything else is made from what
the matrix objects hold. So if these have a property that operations keep (`Datum.Closed`), every
matrix that a step plans to put into an object has it as well (`Datum.Closed.plan_carries`). This is
so for every step and from whatever tables: converting and defining classes only decides which
transforms are applied.
-/

namespace Attitude

open Asking

variable {α : Type}

/-- Every matrix object holds data with the property. -/
def Store.All (P : Datum α → Prop) (s : Store α) : Prop :=
  ∀ (m : Nat) (x : Sheet α), s.matrices[m]? = some x → P x.datum

/-- The data that the change puts into an object has the property. -/
def Change.Carries (P : Datum α → Prop) : Change α → Prop
  | .bindMatrix _ h | .bindElement _ _ h | .replaceData _ h | .assign _ _ h => P h.datum
  | .overwrite _ x => P x.datum
  | _ => True

namespace Store.All

variable {P : Datum α → Prop} {s : Store α} (hs : s.All P)
include hs

theorem held {m : MatrixId} {h : Held α} (hh : s.held m = .ok h) : P h.datum := by
  obtain ⟨x, hx, hh⟩ := exists_of_bind_eq_ok hh
  cases hh
  exact hs _ x (sheet_eq_ok_iff.1 hx)

theorem subject {e : ElementId} {a : Subject α} (ha : s.subject e = .ok a) : P a.held.datum := by
  obtain ⟨c, x, -, hx, rfl⟩ := subject_eq_ok_iff.1 ha
  exact hs _ x hx

/-- What a register names as an element. -/
theorem named {r : String} {a : Subject α} (ha : s.named r = .ok a) : P a.held.datum := by
  obtain ⟨e, -, ha⟩ := exists_of_bind_eq_ok ha
  exact hs.subject ha

theorem dataOf {r : String} {h : Held α} (hh : s.dataOf r = .ok h) : P h.datum := by
  obtain ⟨x, -, hh⟩ := exists_of_bind_eq_ok hh
  cases x with
  | element e =>
    obtain ⟨a, ha, hh⟩ := exists_of_bind_eq_ok hh
    cases hh
    exact hs.subject ha
  | matrix m => exact hs.held hh

end Store.All

section Elements

variable {P : Datum α → Prop} {w : World α} (hw : w.store.All P) {x : Argument α}
include hw

/-- An argument that is an element is one of the store. -/
theorem Store.All.elementOf? {o : Option (Subject α)} (ho : w.elementOf? x = .ok o) :
    ∀ b ∈ o, P b.held.datum := by
  cases x with
  | register r =>
    obtain ⟨y, -, ho⟩ := exists_of_bind_eq_ok ho
    cases y with
    | element e =>
      obtain ⟨b, hb, ho⟩ := exists_of_bind_eq_ok ho
      cases ho
      rintro _ ⟨⟩
      exact hw.subject hb
    | matrix m => cases ho; nofun
  | _ => cases ho; nofun

/-- An operand is an element of the store. -/
theorem Store.All.operand {b : Subject α} (hb : w.operand x = .ok b) : P b.held.datum := by
  obtain ⟨o, ho, hb⟩ := exists_of_bind_eq_ok hb
  cases o with
  | none => cases hb
  | some b' =>
    cases hb
    exact hw.elementOf? ho b rfl

end Elements

namespace Datum.Closed

variable [Ground α] {P : Datum α → Prop} (hP : Closed P) {w : World α} (hw : w.store.All P)
include hP hw

/-! ## Arguments -/

/-- Arguments are new data, or objects of the store. -/
theorem matrixOf {x : Argument α} {h : Held α} (hh : w.matrixOf x = .ok h) : P h.datum := by
  cases x with
  | data x =>
    obtain ⟨m, -, rfl⟩ := exists_of_map_eq_ok hh
    exact hP.numeric m
  | gap m =>
    cases hh
    exact hP.numeric m
  | symbols x =>
    obtain ⟨m, -, rfl⟩ := exists_of_map_eq_ok hh
    exact hP.entries m
  -- a register passes the object on that it names
  | register r =>
    obtain ⟨y, -, hh⟩ := exists_of_bind_eq_ok hh
    cases y with
    | element e => cases hh
    | matrix m => exact hw.held hh

/-- Optional arguments are new data, or objects of the store. -/
theorem matrixOf? {x : Argument α} {o : Option (Held α)} (ho : w.matrixOf? x = .ok o) :
    ∀ h ∈ o, P h.datum := by
  cases x with
  -- a gap is no data at all
  | gap m =>
    cases ho
    nofun
  | data x =>
    cases x with
    | error e => cases ho; nofun
    | ok m => cases ho; rintro _ ⟨⟩; exact hP.numeric m
  | symbols x =>
    cases x with
    | error e => cases ho; nofun
    | ok m => cases ho; rintro _ ⟨⟩; exact hP.entries m
  -- an element is skipped; only a matrix is passed on
  | register r =>
    obtain ⟨y, -, ho⟩ := exists_of_bind_eq_ok ho
    cases y with
    | element e => cases ho; nofun
    | matrix m =>
      obtain ⟨h, hh, ho⟩ := exists_of_bind_eq_ok ho
      cases ho
      rintro _ ⟨⟩
      exact hw.held hh

/-- The entrywise product of an object and an argument. -/
theorem entrywiseProductOf (m : MatrixId) (x : Argument α) :
    Meets (fun _ => True) (fun h => P h.datum) (w.entrywiseProduct m x) := by
  refine .bind (.self _) fun y hy => .bind (.self _) fun o ho => ?_
  cases o with
  | none => exact .error trivial
  | some h =>
    exact .bind (hP.entrywiseProduct (hw _ y (Store.sheet_eq_ok_iff.1 hy))
      (hP.matrixOf? hw ho h rfl)) fun _ hx => .ok hx

theorem makeData (c : ConcreteClass) (x : Option (Argument α)) :
    Ensures w.catalog.registry (fun h => P h.datum) (w.makeData c x) := by
  unfold World.makeData
  split
  · exact .pure (hP.identity _ _)
  · exact .pure (hP.identity _ _)
  · refine .look fun o ho => ?_
    cases o with
    | some b => exact hP.convert (hw.elementOf? ho b rfl) w.context _ _
    | none => exact .look fun h hh => .lift_meets (Context.takeData_keeps (hP.matrixOf hw hh) c)

/-! ## Plans -/

/-- **Plans.** What a step plans to put into an object has the property. -/
theorem plan_carries (x : Step α) :
    Ensures w.catalog.registry (fun p => p.change.Carries P) (w.plan x) := by
  cases x with
  | new dst cls x =>
    exact .read fun _ => .read fun c => .bind_of (hP.makeData hw c x) fun _ hh => .pure hh
  | identity dst cls type => exact .read fun _ => .read fun _ => .pure (hP.identity _ _)
  | random dst cls x y z t =>
    exact .read fun _ => .read fun c => .read fun q => .look_meets (hP.takeDraw c q) fun _ hh =>
      .pure hh
  | exp dst cls x =>
    exact .read fun c => .look fun v hv =>
      .bind_of (hP.exp (hP.matrixOf hw hv) w.context c) fun _ hp => .pure hp
  | log dst a =>
    refine .read fun y => ?_
    cases y with
    | element e =>
      exact .look fun a ha =>
        .bind_of (hP.convert (hw.subject ha) w.context _ _) fun _ hh => .pure hh
    | matrix m =>
      exact .look fun x hx => .look fun d hd =>
        .pure (hP.apply (hw _ x (Store.sheet_eq_ok_iff.1 hx)) hd)
  | rotationMatrix dst a =>
    exact .look fun a ha => .look_meets (hP.toCanonical (hw.named ha) _) fun _ hh => .pure hh
  | angle dst a =>
    exact .look fun a ha => .look_meets (hP.angle (hw.named ha)) fun _ hh => .pure hh
  | shadow dst a =>
    exact .look fun a ha => .look_meets (hP.shadow (hw.named ha)) fun _ hh => .pure hh
  | coordinates dst a encoding =>
    exact .look fun a ha => .bind_of (hP.convert (hw.named ha) w.context _ _) fun _ hh => .pure hh
  -- the data is handed out as it is held
  | getData dst a => exact .look fun a ha => .pure (hw.named ha)
  | mul dst a x =>
    refine .read fun y => ?_
    cases y with
    | element e =>
      exact .look fun a ha => .look fun b hb =>
        .bind_of (hP.convert (hw.subject ha) w.context _ _) fun copy hcopy =>
          .bind_of (hP.mul (a := ⟨a.cls, copy⟩) hcopy w.context (hw.operand hb)) fun _ hh =>
            .pure hh
    | matrix m => exact .look_meets (hP.entrywiseProductOf hw m x) fun _ hh => .pure hh
  | mulInPlace a x =>
    refine .read fun y => ?_
    cases y with
    | element e =>
      exact .look fun a ha => .look fun b hb =>
        .bind_of (hP.mul (hw.subject ha) w.context (hw.operand hb)) fun _ hh => .pure hh
    | matrix m => exact .look_meets (hP.entrywiseProductOf hw m x) fun _ hh => .pure hh
  | invert a =>
    exact .read fun _ => .look fun a ha => .look_meets (hP.inv (hw.subject ha)) fun _ hh => .pure hh
  | inverse dst a =>
    exact .look fun a ha => .bind_of (hP.convert (hw.named ha) w.context _ _) fun copy hcopy =>
      .look_meets (hP.inv (a := ⟨a.cls, copy⟩) hcopy) fun _ hh => .pure hh
  | canonical dst a =>
    refine .read fun _ => .look fun a ha => .read fun b => ?_
    cases b with
    | true => exact .pure trivial
    | false =>
      exact .read fun _ => .read fun _ => .read fun _ =>
        .bind_of (hP.convert (hw.subject ha) w.context _ _) fun _ hh => .pure hh
  | cast dst a type =>
    refine .look fun a ha => ?_
    cases type with
    | none => exact .throw _
    | some t => exact .look_meets (hP.castSheet (hw.named ha) t) fun _ hx => .pure hx
  | assign dst a b =>
    exact .read fun _ => .read fun _ => .look fun b hb =>
      .bind_of (hP.convert (hw.named hb) w.context _ _) fun _ hh => .pure hh
  | setData a x =>
    exact .read fun _ => .read fun a => .look fun h hh =>
      .look_meets (Context.takeData_keeps (hP.matrixOf hw hh) a.cls) fun _ hk => .pure hk
  | setMatrix a x =>
    exact .read fun _ => .read fun a => .look fun h hh =>
      .look_meets (hP.takeMatrix (hP.matrixOf hw hh) a.cls) fun _ hk => .pure hk
  | setIdentity a type => exact .read fun _ => .read fun _ => .pure (hP.identity _ _)
  | setRandom a x y z t =>
    exact .read fun _ => .read fun a => .read fun q => .look_meets (hP.takeDraw a.cls q)
      fun _ hh => .pure hh
  | poke m p v =>
    refine .read fun y => ?_
    cases y with
    | matrix m =>
      exact .look fun x hx => .look_meets
        (hP.setEntry (hw _ x (Store.sheet_eq_ok_iff.1 hx)) p v) fun _ hz => .pure hz
    | element e => exact .throw _
  | hat dst x =>
    exact .look fun _ hh => .look_meets (hP.applyFormula (hP.matrixOf hw hh) _) fun _ hk => .pure hk
  | vee dst x =>
    exact .look fun _ hh => .look_meets (hP.applyFormula (hP.matrixOf hw hh) _) fun _ hk => .pure hk
  | convert dst x source target =>
    exact .look fun _ hh =>
      .bind_of (hP.convert (hP.matrixOf hw hh) w.context _ _) fun _ hk => .pure hk
  | toCanonical dst x tag =>
    exact .look fun _ hh => .look_meets (hP.toCanonical (hP.matrixOf hw hh) _) fun _ hk => .pure hk
  | fromCanonical dst x tag =>
    exact .look fun _ hh => .look_meets (hP.fromCanonical (hP.matrixOf hw hh) _) fun _ hk =>
      .pure hk
  -- the remaining steps put nothing into an object
  | ask q => exact .bind (w.answer_asks q) fun _ => .pure trivial
  | declare d => exact .read fun _ => .pure trivial
  | configure change => exact .pure trivial
  | drainLog => exact fun r => ⟨.refl, fun p hp => by cases hp; trivial⟩

end Datum.Closed

end Attitude
