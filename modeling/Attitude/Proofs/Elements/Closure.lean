import Attitude.Proofs.Elements.Agreement
import Attitude.Proofs.Formula.Shapes
import Attitude.Proofs.Session.Contracts

/-!
# Properties that operations keep

All data comes from numbers, from expressions in symbols, and from data that was there before, by
transforms of one or two matrices. A property that holds of the former and is kept by the latter is
`Datum.Closed`. It then holds of whatever operations of elements answer, from whatever tables, if it
holds of the data of the elements. The statements below only retrace the definitions of the
operations, so that a property of data has to be looked at under transforms alone.
-/

namespace Attitude

open Asking

variable {α : Type} [Ground α]

/-- A property of numbers and of expressions in symbols that transforms keep. -/
structure Datum.Closed (P : Datum α → Prop) : Prop where
  numeric : ∀ m, P (.numeric m)
  entries : ∀ m, P (.symbolic (.entries m))
  apply : ∀ {f : Transform α} {d e : Datum α}, P d → d.apply f = .ok e → P e
  apply₂ : ∀ {f : Transform₂ α} {a b d : Datum α}, P a → P b → apply₂ f a b = .ok d → P d

/-- That data reads as data of its shape is kept, as transforms make new expressions. -/
theorem Datum.closed_legible : Closed (Legible (β := α)) where
  numeric _ := trivial
  entries _ := rfl
  apply _ := legible_of_apply
  apply₂ _ _ := legible_of_apply₂

/-- Data is taken as it is, or refused. -/
theorem Context.takeData_keeps {P : Datum α → Prop} {ctx : Context α} {h : Held α}
    (hh : P h.datum) (c : ConcreteClass) :
    Meets (fun _ => True) (fun k => P k.datum) (ctx.takeData c h) := by
  refine .bind (.self _) fun ⟨_, _⟩ _ => ?_
  dsimp only
  split
  · exact .error trivial
  · exact .bind (.self _) fun _ _ => .ok hh

namespace Datum.Closed

variable {P : Datum α → Prop} (hP : Closed P)
include hP

/-! ## Data and matrices -/

/-- Numbers are data, or constants that are. -/
theorem ofNumbers (t : ScalarType) (m : Grid α) : P (.ofNumbers t m) := by
  cases t with
  | numeric => exact hP.numeric m
  | symbolic => exact hP.entries _

/-- Data in another scalar type: symbols stay symbols, and numbers become constants. -/
theorem cast {t : ScalarType} {d e : Datum α} (hd : P d) (h : d.cast t = .ok e) : P e := by
  cases t with
  | numeric =>
    obtain ⟨m, -, rfl⟩ := exists_of_map_eq_ok h
    exact hP.numeric m
  | symbolic =>
    cases h
    cases d with
    | numeric m => exact hP.entries _
    | symbolic s => exact hd

section Sheet

variable {E : Fault → Prop} {x y : Sheet α} (hx : P x.datum)
include hx

theorem product (hy : P y.datum) : Meets (fun _ => True) (fun z => P z.datum) (x.product y) :=
  .bind (.of_answer fun _ => hP.apply₂ hx hy) fun _ hd => .ok hd

theorem transpose : Meets (fun _ => True) (fun z => P z.datum) x.transpose :=
  .bind (.of_answer fun _ => hP.apply hx) fun _ hd => .ok hd

theorem negate : Meets (fun _ => True) (fun z => P z.datum) x.negate :=
  .bind (.of_answer fun _ => hP.apply hx) fun _ hd => .ok hd

theorem castSheet (t : ScalarType) : Meets (fun _ => True) (fun z => P z.datum) (x.cast t) :=
  .bind (.of_answer fun _ => hP.cast hx) fun _ hd => .ok hd

/-- A number that replaces an entry is a part of the transform. -/
theorem setEntry (p : Position) (v : α) :
    Meets (fun _ => True) (fun z => P z.datum) (x.setEntry p v) :=
  .bind (.self _) fun ⟨_, _⟩ _ => .bind (.of_answer fun _ => hP.apply hx) fun _ hd => .ok hd

/-- Entrywise products, with the entries cleared that are zero by the structure. -/
theorem entrywiseProduct (hy : P y.datum) :
    Meets (fun _ => True) (fun z => P z.datum) (x.entrywiseProduct y) := by
  unfold Sheet.entrywiseProduct
  refine .bind (.of_answer fun _ => hP.apply₂ hx hy) fun d hd => ?_
  dsimp only
  split
  · exact .ok hd
  · exact .bind (.of_answer fun _ => hP.apply hd) fun _ hd' => .ok hd'

end Sheet

/-! ## Conversions -/

section Conversion

variable {s : Settings α} {ctx : Context α} {h k : Held α} (hh : P h.datum)
include hh

/-- **Formulas** apply one transform, or none. -/
theorem applyFormula (f : Formula) :
    Meets (fun _ => True) (fun k => P k.datum) (s.applyFormula f h) := by
  by_cases hitself : f = .itself
  · subst hitself
    exact .ok hh
  by_cases hcopy : f = .copy
  · subst hcopy
    exact .ok hh
  rw [Settings.applyFormula_eq hitself hcopy]
  exact .bind (.of_answer fun _ => hP.apply hh) fun d hd => .bind (.self _) fun _ _ => .ok hd

/-- Formulas of two arguments apply one transform. -/
theorem applyFormula₂ (f : Formula) (hk : P k.datum) :
    Meets (fun _ => True) (fun k => P k.datum) (s.applyFormula₂ f h k) :=
  .map (.of_answer fun _ => hP.apply₂ hh hk) fun _ hd => hd

theorem applyLink (l : Link Formula) :
    Meets (fun _ => True) (fun k => P k.datum) (s.applyLink h l) := by
  cases l with
  | copy => exact .ok hh
  | rule f => exact hP.applyFormula hh f

/-- Chains of links, by induction on the links that are left. -/
theorem applyRoute (r : Route Formula) :
    Meets (fun _ => True) (fun k => P k.datum) (s.applyRoute r h) := by
  unfold Settings.applyRoute
  induction r.links generalizing h with
  | nil => exact .ok hh
  | cons l ls ih =>
    simp only [List.foldlM_cons]
    exact .bind (hP.applyLink hh l) fun _ hk => ih hk

/-- **Conversions**, whatever route they are told. -/
theorem convert (ctx : Context α) (src dst : Key) :
    Ensures ctx.registry (fun k => P k.datum) (ctx.convert h src dst) :=
  .bind (ctx.route_asks src dst) fun r => .lift_meets (hP.applyRoute hh r)

/-- The way to the canonical encoding, whatever the tables have for it. -/
theorem toCanonical (k : Key) :
    Meets (fun _ => True) (fun k => P k.datum) (ctx.toCanonical h k) :=
  .bind (.self _) fun l _ => hP.applyLink hh l

/-- The way from the canonical encoding, whatever the tables have for it. -/
theorem fromCanonical (k : Key) :
    Meets (fun _ => True) (fun k => P k.datum) (ctx.fromCanonical h k) :=
  .bind (.self _) fun l _ => hP.applyLink hh l

/-! ## Taking data -/

/-- A matrix that is taken is converted first. -/
theorem takeMatrix (c : ConcreteClass) :
    Meets (fun _ => True) (fun k => P k.datum) (ctx.takeMatrix c h) := by
  unfold Context.takeMatrix
  split
  · exact .error trivial
  · exact .bind (hP.fromCanonical hh c.key) fun _ hk => Context.takeData_keeps hk c

theorem exp (ctx : Context α) (c : ElementClass) :
    Ensures ctx.registry (fun p => P p.2.datum) (ctx.exp c h) := by
  unfold Context.exp
  split
  · exact .throw _
  · exact .bind_of (hP.convert hh ctx _ _) fun k hk => .read fun c =>
      .look_meets (Context.takeData_keeps hk c) fun _ hk' => .pure hk'

end Conversion

theorem identity (f : Family) (t : ScalarType) : P (f.identity t : Held α).datum := by
  cases f <;> exact hP.ofNumbers t _

variable {ctx : Context α}

theorem takeDraw (c : ConcreteClass) (q : Quaternion α) :
    Meets (fun _ => True) (fun k => P k.datum) (ctx.takeDraw c q) := by
  have hmatrix : Meets (fun _ => True) (fun k => P k.datum)
      (ctx.takeMatrix c (.fresh (.numeric q.toDrawnMatrix.toGrid))) :=
    hP.takeMatrix (h := .fresh (.numeric q.toDrawnMatrix.toGrid)) (hP.numeric _) c
  unfold Context.takeDraw
  split
  · exact .ok (hP.numeric _)
  · exact .ok (hP.numeric _)
  · exact .ok (hP.numeric _)
  · exact hmatrix
  · exact hmatrix

/-! ## Operations of elements -/

variable {a b : Subject α} (ha : P a.held.datum)
include ha

theorem matrixProduct (hb : P b.held.datum) :
    Meets (fun _ => True) (fun k => P k.datum) (ctx.matrixProduct a b) :=
  .bind (hP.toCanonical ha _) fun _ hm => .bind (hP.toCanonical hb _) fun _ hn =>
    .map (.of_answer fun _ => hP.apply₂ hm hn) fun _ hd => hd

/-- **Products** in the formulas of each class. -/
theorem mul (ctx : Context α) (hb : P b.held.datum) :
    Ensures ctx.registry (fun k => P k.datum) (ctx.mul a b) := by
  unfold Context.mul
  split
  · exact .look_meets (hP.toCanonical hb _) fun _ hn => .look_meets (hP.product ha hn) fun _ hx =>
      .pure hx
  · exact .bind_of (hP.convert hb ctx _ _) fun _ hq => .lift_meets (hP.applyFormula₂ ha _ hq)
  · exact .bind_of (hP.convert hb ctx _ _) fun _ hr => .lift_meets (hP.applyFormula₂ ha _ hr)
  · exact .look_meets (hP.matrixProduct ha hb) fun _ hm => .lift_meets (hP.applyFormula hm _)
  · exact .look_meets (hP.matrixProduct ha hb) fun _ hm => .lift_meets (hP.applyFormula hm _)

/-- **Inverses** in the formulas of each class. -/
theorem inv : Meets (fun _ => True) (fun k => P k.datum) (ctx.inv a) := by
  unfold Context.inv
  split
  · exact .bind (hP.transpose ha) fun _ hx => .ok hx
  · exact hP.applyFormula ha _
  · exact .bind (hP.negate ha) fun _ hx => .ok hx
  · exact .bind (hP.negate ha) fun _ hx => .ok hx
  · exact .bind (hP.toCanonical ha _) fun _ hm => .bind (.of_answer fun _ => hP.apply hm)
      fun d hd => hP.applyFormula (h := .fresh d) hd _

theorem angle : Meets (fun _ => True) (fun k => P k.datum) (Context.angle a) := by
  unfold Context.angle
  split
  · split
    · exact .map (.of_answer fun _ => hP.apply ha) fun _ hd => hd
    · exact .error trivial
  · exact .error trivial

theorem shadow : Meets (fun _ => True) (fun k => P k.datum) (ctx.shadow a) := by
  unfold Context.shadow
  split
  · exact hP.applyFormula ha _
  · exact .error trivial

end Datum.Closed

end Attitude
