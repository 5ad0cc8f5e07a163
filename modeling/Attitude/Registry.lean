import Attitude.Fault
import Attitude.Table

/-!
# The registry of encodings

Every encoding has traits: the shape of its data and its canonical encoding. Conversions are rules
of some type `ρ`. An encoding may have a leg to its canonical encoding and a leg from there, and any
pair of encodings may have a direct rule.

`Registry.resolve` finds the chain of rules between two encodings. It is a function of the registry
alone: what is remembered between requests is the concern of `Router`.
-/

namespace Attitude

/-- The traits of an encoding. -/
structure Traits where
  /-- The shape of the data, for matrices the numbers of rows and columns. -/
  shape : List Nat
  canonical : Tag
  deriving DecidableEq, Repr

/-- One step of a conversion. -/
inductive Link (ρ : Type) where
  /-- A copy of the data. -/
  | copy
  | rule (r : ρ)
  deriving DecidableEq, Repr

/-- How the chain of a conversion came about. -/
inductive RouteKind where
  | copy
  | direct
  | pivot
  deriving DecidableEq, Repr

/-- The chain of a conversion, of one or two links. -/
structure Route (ρ : Type) where
  kind : RouteKind
  links : List (Link ρ)
  deriving DecidableEq, Repr

/-- The tables of encodings and conversions. -/
structure Registry (ρ : Type) where
  traits : Table Tag Traits := .empty
  toCanonical : Table Tag ρ := .empty
  fromCanonical : Table Tag ρ := .empty
  direct : Table (Tag × Tag) ρ := .empty

namespace Registry

variable {ρ : Type}

/-- A registered tag and its traits. -/
def find (reg : Registry ρ) (k : Key) : Except Fault (Tag × Traits) :=
  match k with
  | .tag t =>
    match reg.traits.get? t with
    | some r => .ok (t, r)
    | none => .error (.noTraits k)
  | _ => .error (.noTraits k)

/-- Whether a registered tag is its own canonical encoding. -/
def isCanonical (reg : Registry ρ) (k : Key) : Except Fault Bool := do
  let (t, r) ← reg.find k
  pure (r.canonical = t)

/-- The rule of a tag in one of the two directions. -/
def leg (reg : Registry ρ) (d : Direction) (t : Tag) : Except Fault ρ :=
  let table := match d with
    | .toCanonical => reg.toCanonical
    | .fromCanonical => reg.fromCanonical
  match table.get? t with
  | some r => .ok r
  | none => .error (.noLeg d t)

/-- Whether a key has legs in both directions. -/
def hasLegs (reg : Registry ρ) : Key → Bool
  | .tag t => (reg.toCanonical.get? t).isSome && (reg.fromCanonical.get? t).isSome
  | _ => false

/-- The link between a registered encoding and its canonical one: a copy where the two are the same,
and the leg elsewhere. -/
def canonicalLink (reg : Registry ρ) (d : Direction) (k : Key) : Except Fault (Link ρ) := do
  let (t, r) ← reg.find k
  if r.canonical = t then pure .copy else return .rule (← reg.leg d t)

/-- The chain through the canonical encoding that two different encodings share. -/
def pivot (reg : Registry ρ) (a b : Tag) (ra rb : Traits) : Except Fault (Route ρ) := do
  if ra.canonical ≠ rb.canonical then throw (.notShared a b)
  if ra.canonical = a then return ⟨.pivot, [.rule (← reg.leg .fromCanonical b)]⟩
  if rb.canonical = b then return ⟨.pivot, [.rule (← reg.leg .toCanonical a)]⟩
  let first ← reg.leg .toCanonical a
  let second ← reg.leg .fromCanonical b
  return ⟨.pivot, [.rule first, .rule second]⟩

/-- The chain from one encoding to another: a copy between an encoding and itself, a direct rule
where there is one, and the way through the canonical encoding elsewhere. -/
def resolve (reg : Registry ρ) (src dst : Key) : Except Fault (Route ρ) := do
  let (a, ra) ← reg.find src
  let (b, rb) ← reg.find dst
  if a = b then return ⟨.copy, [.copy]⟩
  match reg.direct.get? (a, b) with
  | some r => return ⟨.direct, [.rule r]⟩
  | none => reg.pivot a b ra rb

end Registry

end Attitude
