import Attitude.Session.Run

/-!
# Steps carried out in place

Here a step is carried out as it goes. Every operation stores what it has computed before the next
one starts, and a fault stops the step where it stands: an `Execution` has no way back, so whatever
was stored before the fault stays.

An operation works on a `Receiver`. That is an element object, or the element that the step is
making. The latter has no register yet: its data is kept beside the session until a register names
it, and is lost if the step stops before that.

`Session.execute` is a second account of a step, next to `Session.step`, which computes everything
first and stores at the end. The two are the same function (`Session.execute_eq_step`).
-/

namespace Attitude

/-- The state in the course of a step. -/
structure Machine (α : Type) extends Session α where
  /-- The data of the element that the step is making, once it has some. -/
  made : Option (Held α) := none

/-- A computation in the course of a step. What it has changed stays changed after a fault. -/
abbrev Execution (α : Type) := ExceptT Fault (StateM (Machine α))

/-- An element that an operation works on. -/
structure Receiver where
  cls : ConcreteClass
  /-- The element object, missing for the element that the step is making. -/
  home : Option ElementId

namespace Execution

variable {α β : Type}

/-- Computes something from the world as it stands. -/
def look (f : World α → Except Fault β) : Execution α β :=
  ExceptT.mk fun m => (f m.world, m)

/-- Computes something that asks the router for chains. -/
def ask (f : World α → Asking β) : Execution α β :=
  ExceptT.mk fun m =>
    let (x, r) := (f m.world).run m.router
    (x, { m with router := r })

/-- Changes the world. -/
def change (f : World α → World α) : Execution α Unit :=
  modify fun m => { m with world := f m.world }

/-- Changes the objects and registers. -/
def changeStore (f : Store α → Store α) : Execution α Unit :=
  change fun w => { w with store := f w.store }

/-- Changes the tables. -/
def changeCatalog (f : Catalog → Catalog) : Execution α Unit :=
  change fun w => { w with catalog := f w.catalog }

/-- Changes the tables of encodings and conversions. -/
def changeRegistry (f : Registry Formula → Registry Formula) : Execution α Unit :=
  changeCatalog fun c => { c with registry := f c.registry }

/-- Changes the router. -/
def changeRouter (f : Router Formula → Router Formula) : Execution α Unit :=
  modify fun m => { m with router := f m.router }

/-- Starts to make an element. It has no data yet. -/
def make (c : ConcreteClass) : Execution α Receiver := do
  modify fun m => { m with made := none }
  return ⟨c, none⟩

/-- The element object of an identity. -/
def receiver (e : ElementId) : Execution α Receiver := do
  return ⟨(← look (·.store.subject e)).cls, some e⟩

/-- Lets a register name a matrix, and shows the matrix. -/
def nameMatrix [Ground α] (dst : String) (h : Held α) : Execution α (Answer α) := do
  changeStore (·.bindMatrix dst h)
  return .matrix h.datum.shown

end Execution

open Execution

/-! ## Operations of one element -/

namespace Receiver

variable {α : Type} [Ground α] (a : Receiver)

/-- The data of the element, if it has some already. -/
def data? : Execution α (Option (Held α)) :=
  match a.home with
  | some e => do return some (← look (·.store.subject e)).held
  | none => do return (← get).made

/-- The data of the element. -/
def data : Execution α (Held α) := do
  match ← a.data? with
  | some h => return h
  | none => throw .noOperation

/-- Gives the element other data. -/
def write (h : Held α) : Execution α Unit :=
  match a.home with
  | some e => changeStore (·.replaceData e h)
  | none => modify fun m => { m with made := some h }

/-- Lets a register name the element. -/
def name (dst : String) : Execution α Unit :=
  match a.home with
  | some e => changeStore (·.bind dst (.element e))
  | none => do
    let h ← a.data
    changeStore (·.bindElement dst a.cls h)

/-- Shows the element with the data that it has now. -/
def answer : Execution α (Answer α) := do
  return .element a.cls.name (← a.data).datum.shown

/-- Gives the element the data of the identity. Without a type its scalars stay of the type that
they have. -/
def setIdentity (type : Option ScalarType) : Execution α Unit := do
  let t ← match type with
    | some t => pure t
    | none => do
      let h ← a.data?
      pure ((h.map fun h => h.datum.scalarType).getD .numeric)
  a.write (a.cls.family.identity t)

/-- Gives the element a copy of data. -/
def setData (h : Held α) : Execution α Unit := do
  let (_, traits) ← look (·.catalog.registry.find a.cls.key)
  if h.datum.shape ≠ traits.shape then throw .wrongShape
  look (·.context.checkRotation a.cls h)
  a.write h.copy

/-- Gives the element the rotation of a matrix. -/
def setMatrix (h : Held α) : Execution α Unit := do
  if h.datum.shape ≠ [3, 3] then throw .wrongShape
  let x ← look (·.context.fromCanonical h a.cls.key)
  a.setData x

/-- Gives the element a drawn rotation. -/
def setRandom (x y z w : α) : Execution α Unit := do
  let q ← look fun _ => Quaternion.ofDraw x y z w
  match a.cls.family with
  | .matrix => a.write (.fresh (.numeric q.toDrawnMatrix.toGrid))
  | .quaternion => a.write (.fresh (.numeric q.toGrid))
  | .rotationVector => a.write (.fresh (.numeric q.toDrawnRotationVector.toGrid))
  | .euler | .rodrigues => a.setMatrix (.fresh (.numeric q.toDrawnMatrix.toGrid))

/-- Gives the element the rotation of another one. -/
def assign (b : Subject α) : Execution α Unit := do
  a.write (← ask (·.context.dataFor a.cls b))

/-- Replaces the element by its product with another one. -/
def multiply (b : Subject α) : Execution α Unit := do
  let h ← a.data
  a.write (← ask (·.context.mul ⟨a.cls, h⟩ b))

/-- Replaces the element by its inverse. -/
def invert : Execution α Unit := do
  let h ← a.data
  a.write (← look (·.context.inv ⟨a.cls, h⟩))

/-- Gives an element that is being made its first data: that of an argument, or the identity where
the argument is nothing. -/
def initialise : Option (Argument α) → Execution α Unit
  | none | some (.gap _) => a.setIdentity none
  | some x => do
    match ← look (·.elementOf? x) with
    | some b => a.assign b
    | none => do
      let h ← look (·.matrixOf x)
      a.setData h

end Receiver

/-! ## Steps -/

namespace Execution

variable {α : Type} [Ground α]

/-- Names the element in a register and shows it. -/
def nameElement (dst : String) (a : Receiver) : Execution α (Answer α) := do
  a.name dst
  a.answer

/-- Carries out a declaration. -/
def declare : Declaration → Execution α (Answer α)
  | .tag name ofRotations => do
    look fun _ => Catalog.checkName name
    changeCatalog (·.declareTag name ofRotations)
    return .nothing
  | .traits tag shape canonical => do
    let t ← look (·.catalog.tagOfRotations tag)
    let k ← match canonical with
      | some name => look (·.catalog.tagOfRotations name)
      | none => pure Tag.matrix
    changeCatalog (·.setTraits t ⟨shape, k⟩)
    return .traits t ⟨shape, k⟩
  | .legs tag toCanonical fromCanonical => do
    let (t, _) ← look fun w => w.catalog.registry.find (w.catalog.key tag)
    changeRegistry fun r => { r with toCanonical := r.toCanonical.insert t toCanonical }
    changeRegistry fun r => { r with fromCanonical := r.fromCanonical.insert t fromCanonical }
    changeRouter (·.forget (.registeredPivot t))
    return .nothing
  | .direct source target f => do
    let (a, _) ← look fun w => w.catalog.registry.find (w.catalog.key source)
    let (b, _) ← look fun w => w.catalog.registry.find (w.catalog.key target)
    changeRegistry fun r => { r with direct := r.direct.insert (a, b) f }
    changeRouter (·.forget (.registeredDirect a b))
    return .nothing
  | .elementClass name tag parent => do
    let p ← look (·.catalog.classNamed parent)
    look fun _ => Catalog.checkName name
    match tag with
    | none => changeCatalog (·.addClass { p with name := name })
    | some tag => do
      let (t, legs) ← look fun w => do
        let k := w.catalog.key tag
        match w.catalog.registry.find k with
        | .error _ => throw (.definedWithoutTraits k)
        | .ok (t, _) => return (t, w.catalog.registry.hasLegs k)
      if !legs then throw (.definedWithoutLegs t name)
      -- the tag has its holder before the name has its class
      let cls : ElementClass := ⟨name, p.family, some t⟩
      let _ ← look (·.catalog.registry.find (.tag t))
      changeCatalog fun c => { c with holders := c.holders.insert t cls }
      changeCatalog (·.addClass cls)
    return .nothing

/-- Carries out a step. -/
def ofStep : Step α → Execution α (Answer α)
  | .new dst cls x => do
    let c ← look (·.catalog.classNamed cls)
    let a ← make (← look fun _ => c.concrete)
    a.initialise x
    nameElement dst a
  | .identity dst cls type => do
    let c ← look (·.catalog.classNamed cls)
    let a ← make (← look fun _ => c.concrete)
    a.initialise none
    a.setIdentity type
    nameElement dst a
  | .random dst cls x y z t => do
    let c ← look (·.catalog.classNamed cls)
    let a ← make (← look fun _ => c.concrete)
    a.initialise none
    a.setRandom x y z t
    nameElement dst a
  | .exp dst cls x => do
    let c ← look (·.catalog.classNamed cls)
    let v ← look (·.matrixOf x)
    if v.datum.shape ≠ [3, 1] then throw .wrongShape
    let h ← ask (·.context.convert v (.tag .rotationVector) c.key)
    let a ← make (← look fun _ => c.concrete)
    a.setData h
    nameElement dst a
  | .log dst a => do
    match ← look (·.store.ref a) with
    | .element e => do
      let s ← look (·.store.subject e)
      nameMatrix dst (← ask (·.context.log s))
    | .matrix m => do
      let x ← look (·.store.sheet m)
      nameMatrix dst (.fresh (← look fun _ => x.datum.apply logarithm))
  | .rotationMatrix dst a => do
    let s ← look (·.store.named a)
    nameMatrix dst (← look (·.context.rotationMatrix s))
  | .angle dst a => do
    let s ← look (·.store.named a)
    nameMatrix dst (← look fun _ => Context.angle s)
  | .shadow dst a => do
    let s ← look (·.store.named a)
    nameMatrix dst (← look (·.context.shadow s))
  | .coordinates dst a encoding => do
    let s ← look (·.store.named a)
    nameMatrix dst (← ask fun w => w.context.coordinates s (w.catalog.keyOfClassOrTag encoding))
  | .getData dst a => do
    let s ← look (·.store.named a)
    nameMatrix dst s.held
  | .mul dst a x => do
    match ← look (·.store.ref a) with
    | .element e => do
      let s ← look (·.store.subject e)
      let b ← look (·.operand x)
      let a ← make s.cls
      a.assign s
      a.multiply b
      nameElement dst a
    | .matrix m => do nameMatrix dst (← look (·.entrywiseProduct m x))
  | .mulInPlace a x => do
    match ← look (·.store.ref a) with
    | .element e => do
      let a ← receiver e
      a.multiply (← look (·.operand x))
      a.answer
    | .matrix m => do nameMatrix a (← look (·.entrywiseProduct m x))
  | .invert a => do
    let a ← receiver (← look (·.store.elementId a))
    a.invert
    a.answer
  | .inverse dst a => do
    let s ← look (·.store.named a)
    let a ← make s.cls
    a.assign s
    a.invert
    nameElement dst a
  | .canonical dst a => do
    let e ← look (·.store.elementId a)
    let s ← look (·.store.subject e)
    if ← look (·.catalog.registry.isCanonical s.cls.key) then nameElement dst ⟨s.cls, some e⟩
    else do
      let (_, traits) ← look (·.catalog.registry.find s.cls.key)
      let c ← look (·.catalog.holder (.tag traits.canonical))
      let a ← make (← look fun _ => c.concrete)
      a.assign s
      nameElement dst a
  | .cast dst a type => do
    let s ← look (·.store.named a)
    let content ← look fun _ => type.mapM fun t => s.held.sheet.cast t
    let a ← make s.cls
    a.initialise none
    match content with
    | none => throw .noScalarType
    | some x => do
      a.write ⟨x, none⟩
      nameElement dst a
  | .assign dst a b => do
    let a ← receiver (← look (·.store.elementId a))
    a.assign (← look (·.store.named b))
    nameElement dst a
  | .setData a x => do
    let a ← receiver (← look (·.store.elementId a))
    a.setData (← look (·.matrixOf x))
    a.answer
  | .setMatrix a x => do
    let a ← receiver (← look (·.store.elementId a))
    a.setMatrix (← look (·.matrixOf x))
    a.answer
  | .setIdentity a type => do
    let a ← receiver (← look (·.store.elementId a))
    a.setIdentity type
    a.answer
  | .setRandom a x y z t => do
    let a ← receiver (← look (·.store.elementId a))
    a.setRandom x y z t
    a.answer
  | .poke m p x => do
    match ← look (·.store.ref m) with
    | .matrix m => do
      let y ← look (·.store.sheet m)
      let y ← look fun _ => y.setEntry p x
      changeStore (·.overwrite m y)
      return .matrix y.datum.shown
    | .element _ => throw .notElement
  | .hat dst x => do
    let v ← look (·.matrixOf x)
    nameMatrix dst (← look (·.settings.applyFormula .hat v))
  | .vee dst x => do
    let v ← look (·.matrixOf x)
    nameMatrix dst (← look (·.settings.applyFormula .vee v))
  | .convert dst x source target => do
    let h ← look (·.matrixOf x)
    nameMatrix dst
      (← ask fun w => w.context.convert h (w.catalog.key source) (w.catalog.key target))
  | .toCanonical dst x tag => do
    let h ← look (·.matrixOf x)
    nameMatrix dst (← look fun w => w.context.toCanonical h (w.catalog.key tag))
  | .fromCanonical dst x tag => do
    let h ← look (·.matrixOf x)
    nameMatrix dst (← look fun w => w.context.fromCanonical h (w.catalog.key tag))
  | .ask q => ask (·.answer q)
  | .declare d => declare d
  | .configure setting => do
    change fun w => { w with settings := w.settings.set setting }
    return .setting setting
  | .drainLog => do
    let lines := (← get).router.log
    changeRouter (·.drained)
    return .texts (lines.map Event.text)

end Execution

/-- Carries out a step. A fault leaves the session as it was when the fault came up. -/
def Session.execute {α : Type} [Ground α] (s : Session α) (x : Step α) :
    Except Fault (Answer α) × Session α :=
  let (a, m) := (Execution.ofStep x).run { toSession := s }
  (a, m.toSession)

end Attitude
