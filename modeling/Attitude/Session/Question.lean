import Attitude.Session.World

/-!
# Questions about a world

A question is answered from the world and leaves it as it is. Only the router may learn from a
question, because comparisons and chains ask it for conversions.
-/

namespace Attitude

/-- Data as an answer shows it: the type of its scalars, and its numbers if no symbol is left. -/
structure Shown (α : Type) where
  type : ScalarType
  numbers : Option (Grid α)

/-- The data as an answer shows it. -/
def Datum.shown {α : Type} [Ground α] (d : Datum α) : Shown α := ⟨d.scalarType, d.numbers?⟩

/-- A change of the settings. -/
inductive Setting (α : Type) where
  | defaultTol (x : α)
  | eps (x : α)
  | checks (b : Bool)
  | validityTol (x : α)

/-- The settings after a change. -/
def Settings.set {α : Type} (s : Settings α) : Setting α → Settings α
  | .defaultTol x => { s with defaultTol := x }
  | .eps x => { s with eps := x }
  | .checks b => { s with checks := b }
  | .validityTol x => { s with validityTol := x }

/-- The answer to a step. -/
inductive Answer (α : Type) where
  | nothing
  | flag (b : Bool)
  | text (s : String)
  | texts (xs : List String)
  | element (className : String) (x : Shown α)
  | matrix (x : Shown α)
  | traits (tag : Tag) (r : Traits)
  | setting (change : Setting α)
  /-- The text of an object, which the session leaves to its surroundings to write. -/
  | written (name : String) (x : Sheet α)

/-- A question about a world. -/
inductive Question (α : Type) where
  -- Objects
  | equal (a : String) (x : Argument α)
  | unequal (a : String) (x : Argument α)
  | isClose (a b : String) (tol : Option α)
  | isIdentity (a : String) (tol : Option α)
  | same (a b : String)
  | text (r : String)
  | state (r : String)
  | eval (r : String) (symbols : List (String × α))
  -- Tags, classes and conversions
  | instantiateTag (tag : String)
  | traits (tag : String)
  | isCanonical (encoding : String)
  | elementClass (tag : Option String)
  | hasLegs (tag : String)
  | route (source target : String)

namespace World

variable {α : Type} [Ground α]

/-- The object that a register names, as an answer shows it. -/
def shown (w : World α) (r : String) : Except Fault (Answer α) := do
  match ← w.store.ref r with
  | .element e =>
    let a ← w.store.subject e
    return .element a.cls.name a.held.datum.shown
  | .matrix m => return .matrix (← w.store.held m).datum.shown

/-- The answer to the question whether an object equals an argument, or whether it does not. An
element equals elements only. A matrix is compared with a matrix entry by entry, and equals nothing
else. -/
def comparison (w : World α) (equal : Bool) (a : String) (x : Argument α) :
    Except Fault (Answer α) := do
  match ← w.store.ref a with
  | .element e =>
    let s ← w.store.subject e
    match ← w.elementOf? x with
    | some b => return .flag ((← w.context.equal s b) == equal)
    | none => return .flag !equal
  | .matrix m =>
    let y ← w.store.sheet m
    match ← w.matrixOf? x with
    | some h =>
      let test : Transform₂ α := if equal then entrywise equality else entrywise inequality
      return .matrix (← Datum.apply₂ test y.datum h.datum).shown
    | none => return .flag !equal

/-- Answers a question. -/
def answer (w : World α) : Question α → Asking (Answer α)
  | .equal a x => do return ← w.comparison true a x
  | .unequal a x => do return ← w.comparison false a x
  | .isClose a b tol => do
    let s ← w.store.named a
    let t ← w.store.named b
    return .flag (← w.context.isClose (tol.getD w.settings.defaultTol) s t)
  | .isIdentity a tol => do
    let s ← w.store.named a
    return .flag (← w.context.isIdentity (tol.getD w.settings.defaultTol) s)
  | .same a b => do
    let x ← w.store.ref a
    let y ← w.store.ref b
    return .flag (x = y)
  | .text r => do
    match ← w.store.ref r with
    | .element e =>
      let s ← w.store.subject e
      return .written s.cls.name s.held.sheet
    | .matrix m =>
      let x ← w.store.sheet m
      return .written x.datum.scalarType.name x
  | .state r => do return ← w.shown r
  | .eval r symbols => do
    let h ← w.store.dataOf r
    return .matrix ⟨.numeric, some (← h.datum.evalAt fun name => symbols.lookup name)⟩
  | .instantiateTag tag =>
    match w.catalog.tags.get? tag with
    | some t => if t.ofRotations then throw .tagInstance else return .nothing
    | none => throw .notTag
  | .traits tag => do
    let (t, r) ← w.catalog.registry.find (w.catalog.key tag)
    return .traits t r
  | .isCanonical encoding => do
    return .flag (← w.catalog.registry.isCanonical (w.catalog.keyOfClassOrTag encoding))
  | .elementClass tag => do
    let k := match tag with
      | some name => w.catalog.key name
      | none => .tag .matrix
    return .text (← w.catalog.holder k).name
  | .hasLegs tag => return .flag (w.catalog.registry.hasLegs (w.catalog.key tag))
  | .route source target => do
    let r ← w.context.route (w.catalog.key source) (w.catalog.key target)
    return .texts (r.links.map Link.name)

end World

end Attitude
