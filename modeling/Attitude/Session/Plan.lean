import Attitude.Session.Step

/-!
# What a step does

A step is carried out in two parts. First it is planned: everything that can fail is computed from
the world as it is, which it only reads. The plan is a `Change` together with the answer. Then the
change is applied, which cannot fail. Only the router, which is asked for chains while planning, may
have learned some when a step fails. That steps which store as they go come to the same is the
subject of `Attitude.Session.Execution`.
-/

namespace Attitude

/-- What a planned step changes. -/
inductive Change (α : Type) where
  | none
  /-- A register names an object that exists. -/
  | bind (dst : String) (x : Ref)
  | bindMatrix (dst : String) (h : Held α)
  | bindElement (dst : String) (c : ConcreteClass) (h : Held α)
  | replaceData (e : ElementId) (h : Held α)
  /-- An element takes other data, and a register names the element. -/
  | assign (dst : String) (e : ElementId) (h : Held α)
  | overwrite (m : MatrixId) (x : Sheet α)
  | configure (change : Setting α)
  /-- The catalog is extended, and with an event the router forgets its chains. -/
  | extend (catalog : Catalog) (event : Option Event)
  | drainLog

/-- What a step changes and what it answers. -/
structure Plan (α : Type) where
  change : Change α
  answer : Answer α

namespace Plan

variable {α : Type} [Ground α]

/-- An answer without a change. -/
def reply (a : Answer α) : Plan α := ⟨.none, a⟩

/-- Lets a register name a matrix and shows it. -/
def newMatrix (dst : String) (h : Held α) : Plan α :=
  ⟨.bindMatrix dst h, .matrix h.datum.shown⟩

/-- Lets a register name a new element and shows it. -/
def newElement (dst : String) (c : ConcreteClass) (h : Held α) : Plan α :=
  ⟨.bindElement dst c h, .element c.name h.datum.shown⟩

/-- Gives an element other data and shows it. -/
def newData (e : ElementId) (c : ConcreteClass) (h : Held α) : Plan α :=
  ⟨.replaceData e h, .element c.name h.datum.shown⟩

end Plan

namespace World

variable {α : Type} [Ground α]

/-- Plans a step. -/
def plan (w : World α) : Step α → Asking (Plan α)
  | .new dst cls x => do
    let c ← (← w.catalog.classNamed cls).concrete
    return .newElement dst c (← w.makeData c x)
  | .identity dst cls type => do
    let c ← (← w.catalog.classNamed cls).concrete
    return .newElement dst c (c.family.identity (type.getD .numeric))
  | .random dst cls x y z t => do
    let c ← (← w.catalog.classNamed cls).concrete
    let q ← Quaternion.ofDraw x y z t
    return .newElement dst c (← w.context.takeDraw c q)
  | .exp dst cls x => do
    let c ← w.catalog.classNamed cls
    let (c, h) ← w.context.exp c (← w.matrixOf x)
    return .newElement dst c h
  | .log dst a => do
    match ← w.store.ref a with
    | .element e => return .newMatrix dst (← w.context.log (← w.store.subject e))
    | .matrix m =>
      let x ← w.store.sheet m
      return .newMatrix dst (.fresh (← x.datum.apply logarithm))
  | .rotationMatrix dst a => do
    return .newMatrix dst (← w.context.rotationMatrix (← w.store.named a))
  | .angle dst a => do
    return .newMatrix dst (← Context.angle (← w.store.named a))
  | .shadow dst a => do
    return .newMatrix dst (← w.context.shadow (← w.store.named a))
  | .coordinates dst a encoding => do
    let s ← w.store.named a
    return .newMatrix dst (← w.context.coordinates s (w.catalog.keyOfClassOrTag encoding))
  | .getData dst a => do
    let s ← w.store.named a
    return .newMatrix dst s.held
  | .mul dst a x => do
    match ← w.store.ref a with
    | .element e =>
      let s ← w.store.subject e
      let b ← w.operand x
      let copy ← w.context.dataFor s.cls s
      return .newElement dst s.cls (← w.context.mul ⟨s.cls, copy⟩ b)
    | .matrix m => return .newMatrix dst (← w.entrywiseProduct m x)
  | .mulInPlace a x => do
    match ← w.store.ref a with
    | .element e =>
      let s ← w.store.subject e
      let b ← w.operand x
      return .newData e s.cls (← w.context.mul s b)
    | .matrix m => return .newMatrix a (← w.entrywiseProduct m x)
  | .invert a => do
    let e ← w.store.elementId a
    let s ← w.store.subject e
    return .newData e s.cls (← w.context.inv s)
  | .inverse dst a => do
    let s ← w.store.named a
    let copy ← w.context.dataFor s.cls s
    return .newElement dst s.cls (← w.context.inv ⟨s.cls, copy⟩)
  | .canonical dst a => do
    let e ← w.store.elementId a
    let s ← w.store.subject e
    if ← w.catalog.registry.isCanonical s.cls.key then
      return ⟨.bind dst (.element e), .element s.cls.name s.held.datum.shown⟩
    else
      let (_, traits) ← w.catalog.registry.find s.cls.key
      let c ← (← w.catalog.holder (.tag traits.canonical)).concrete
      return .newElement dst c (← w.context.dataFor c s)
  | .cast dst a type => do
    let s ← w.store.named a
    match type with
    | none => throw .noScalarType
    | some t => return .newElement dst s.cls ⟨← s.held.sheet.cast t, none⟩
  | .assign dst a b => do
    let e ← w.store.elementId a
    let s ← w.store.subject e
    let t ← w.store.named b
    let h ← w.context.dataFor s.cls t
    return ⟨.assign dst e h, .element s.cls.name h.datum.shown⟩
  | .setData a x => do
    let e ← w.store.elementId a
    let s ← w.store.subject e
    return .newData e s.cls (← w.context.takeData s.cls (← w.matrixOf x))
  | .setMatrix a x => do
    let e ← w.store.elementId a
    let s ← w.store.subject e
    return .newData e s.cls (← w.context.takeMatrix s.cls (← w.matrixOf x))
  | .setIdentity a type => do
    let e ← w.store.elementId a
    let s ← w.store.subject e
    return .newData e s.cls (s.cls.family.identity (type.getD s.held.datum.scalarType))
  | .setRandom a x y z t => do
    let e ← w.store.elementId a
    let s ← w.store.subject e
    let q ← Quaternion.ofDraw x y z t
    return .newData e s.cls (← w.context.takeDraw s.cls q)
  | .poke m p x => do
    match ← w.store.ref m with
    | .matrix m =>
      let y ← (← w.store.sheet m).setEntry p x
      return ⟨.overwrite m y, .matrix y.datum.shown⟩
    | .element _ => throw .notElement
  | .hat dst x => do
    return .newMatrix dst (← w.settings.applyFormula .hat (← w.matrixOf x))
  | .vee dst x => do
    return .newMatrix dst (← w.settings.applyFormula .vee (← w.matrixOf x))
  | .convert dst x source target => do
    let h ← w.matrixOf x
    return .newMatrix dst (← w.context.convert h (w.catalog.key source) (w.catalog.key target))
  | .toCanonical dst x tag => do
    return .newMatrix dst (← w.context.toCanonical (← w.matrixOf x) (w.catalog.key tag))
  | .fromCanonical dst x tag => do
    return .newMatrix dst (← w.context.fromCanonical (← w.matrixOf x) (w.catalog.key tag))
  | .ask q => do
    return .reply (← w.answer q)
  | .declare d => do
    let r ← w.catalog.declare d
    let answer := match r.registered with
      | some (t, traits) => .traits t traits
      | none => .nothing
    return ⟨.extend r.catalog r.event, answer⟩
  | .configure change => return ⟨.configure change, .setting change⟩
  | .drainLog => do
    let r ← getThe (Router Formula)
    return ⟨.drainLog, .texts (r.log.map Event.text)⟩

end World

end Attitude
