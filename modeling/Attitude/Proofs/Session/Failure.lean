import Attitude.Proofs.Session.Execution
import Attitude.Proofs.Session.Runs

/-!
# Steps that fail

A step that is carried out in place and stops at a fault leaves the world as it was, although
nothing is taken back: every operation computes all that it needs before it stores, and what a step
stores while it makes an element reaches the world only with the register that names the element.
What a failed step may leave behind are chains in the memory of the router and lines in its log,
because some operations ask for a chain before they find out that they cannot be carried out. Such a
chain is the one that a request would have got anyway.
-/

namespace Attitude

namespace Session

variable {α : Type} [Ground α]

/-- **A failed step changes nothing.** The step is carried out in place. The objects, the registers,
the settings and all tables stay. The log of the router grows at most by lines about chains that it
has found, its memory keeps what it held, and every request gets the answer that it would have got
before. -/
theorem world_of_failed_step (s : Session α) (x : Step α) (e : Fault)
    (h : (s.execute x).1 = .error e) :
    (s.execute x).2.world = s.world ∧
      (∃ events, (s.execute x).2.router.log = s.router.log ++ events ∧
        ∀ y ∈ events, ∃ a b route, y = .routed a b route.kind route.links.length ∧
          (s.execute x).2.router.known.get? (a, b) = some route) ∧
      (∀ src dst route, s.router.remembered? src dst = some route →
        (s.execute x).2.router.remembered? src dst = some route) ∧
      ∀ src dst, (s.execute x).2.router.answer s.world.catalog.registry src dst =
        s.router.answer s.world.catalog.registry src dst := by
  rw [execute_eq_step] at h ⊢
  have hasked : Router.Asked s.world.catalog.registry s.router (s.step x).2.router := by
    have hr := (s.world.plan_asks x s.router).1
    obtain ⟨e', r, hplan, hs⟩ | ⟨p, r, -, hs⟩ := s.step_cases x
    · rw [hplan] at hr
      rw [hs]
      exact hr
    · -- a change that was planned is applied without fail
      rw [hs] at h
      cases h
  exact ⟨world_of_error h, hasked.log_eq, fun _ _ _ => hasked.keeps, hasked.answer_eq⟩

/-- Data of the wrong shape is noticed only after the chain was found and remembered. -/
def conversionOfPair : Step Float :=
  .convert "m" (.data (.ok (Grid.column [1, 0]))) "QuaternionRep" "EulerRep"

/-- The conversion of a pair of numbers fails, after its route was found and listed. The world is as
before. -/
theorem world_of_failed_conversion :
    (initial.execute conversionOfPair).1 = .error .wrongShape ∧
      (initial.execute conversionOfPair).2.router.log = [.routed .quaternion .euler .pivot 2] ∧
      (initial.execute conversionOfPair).2.world = (initial (α := Float)).world :=
  ⟨rfl, rfl, (world_of_failed_step initial conversionOfPair .wrongShape rfl).1⟩

end Session

end Attitude
