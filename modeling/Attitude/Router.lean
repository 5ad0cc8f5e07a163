import Attitude.Registry

/-!
# Remembered conversions

The router answers requests for the chain of a conversion. It remembers the chains that it found and
keeps a log of what it did. A request that fails leaves no trace.
-/

namespace Attitude

/-- What the log holds. -/
inductive Event where
  | registeredPivot (t : Tag)
  | registeredDirect (a b : Tag)
  | routed (a b : Tag) (kind : RouteKind) (steps : Nat)
  deriving DecidableEq, Repr

namespace Event

/-- The word for the kind of a chain. -/
def kindText : RouteKind → String
  | .copy => "copy"
  | .direct => "direct"
  | .pivot => "pivot"

/-- The line of the log. -/
def text : Event → String
  | registeredPivot t => "registered canonical pivot for " ++ t.name
  | registeredDirect a b => "registered direct conversion " ++ a.name ++ " -> " ++ b.name
  | routed a b kind steps =>
    "conversion route " ++ a.name ++ " -> " ++ b.name ++ ": " ++ kindText kind ++ ", " ++
      toString steps ++ " step(s)"

end Event

/-- The remembered chains and the log, oldest line first. -/
structure Router (ρ : Type) where
  known : Table (Tag × Tag) (Route ρ) := .empty
  log : List Event := []

namespace Router

variable {ρ : Type}

/-- The chain that is remembered for two keys. -/
def remembered? (r : Router ρ) : Key → Key → Option (Route ρ)
  | .tag a, .tag b => r.known.get? (a, b)
  | _, _ => none

/-- Remembers a chain and logs it. -/
def learn (r : Router ρ) (src dst : Key) (route : Route ρ) : Router ρ :=
  match src, dst with
  | .tag a, .tag b =>
    { known := r.known.insert (a, b) route
      log := r.log ++ [.routed a b route.kind route.links.length] }
  | _, _ => r

/-- Answers a request: a remembered chain as it is, any other one from the registry. -/
def request (reg : Registry ρ) (src dst : Key) (r : Router ρ) :
    Except Fault (Route ρ) × Router ρ :=
  match r.remembered? src dst with
  | some route => (.ok route, r)
  | none =>
    match reg.resolve src dst with
    | .ok route => (.ok route, r.learn src dst route)
    | .error e => (.error e, r)

/-- Forgets all chains and logs why. -/
def forget (r : Router ρ) (why : Event) : Router ρ := ⟨.empty, r.log ++ [why]⟩

/-- The router with an empty log. -/
def drained (r : Router ρ) : Router ρ := { r with log := [] }

end Router

end Attitude
