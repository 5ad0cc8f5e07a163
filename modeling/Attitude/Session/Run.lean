import Attitude.Session.Plan

/-!
# Running a session

A session is a world and a router. A step is planned and its change applied; a run takes steps one
after the other and collects their answers.
-/

namespace Attitude

/-- The state between two steps. -/
structure Session (α : Type) where
  world : World α
  router : Router Formula := {}

namespace World

variable {α : Type} [Ground α]

/-- The world after a change. -/
def apply (w : World α) : Change α → World α
  | .none | .drainLog => w
  | .bind dst x => { w with store := w.store.bind dst x }
  | .bindMatrix dst h => { w with store := w.store.bindMatrix dst h }
  | .bindElement dst c h => { w with store := w.store.bindElement dst c h }
  | .replaceData e h => { w with store := w.store.replaceData e h }
  | .assign dst e h => { w with store := (w.store.replaceData e h).bind dst (.element e) }
  | .overwrite m x => { w with store := w.store.overwrite m x }
  | .configure change => { w with settings := w.settings.set change }
  | .extend catalog _ => { w with catalog := catalog }

end World

/-- The router after a change. -/
def Router.apply {α : Type} (r : Router Formula) : Change α → Router Formula
  | .extend _ (some event) => r.forget event
  | .drainLog => r.drained
  | _ => r

namespace Session

variable {α : Type} [Ground α]

/-- The state before the first step. -/
def initial : Session α := { world := { settings := .initial } }

/-- Takes a step. -/
def step (s : Session α) (x : Step α) : Except Fault (Answer α) × Session α :=
  match (s.world.plan x).run s.router with
  | (.error e, r) => (.error e, { s with router := r })
  | (.ok p, r) => (.ok p.answer, ⟨s.world.apply p.change, r.apply p.change⟩)

/-- Takes steps one after the other. -/
def run (s : Session α) : List (Step α) → List (Except Fault (Answer α)) × Session α
  | [] => ([], s)
  | x :: xs =>
    let (a, s) := s.step x
    let (as, s) := s.run xs
    (a :: as, s)

end Session

end Attitude
