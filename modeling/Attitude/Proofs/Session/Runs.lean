import Attitude.Session.Run

/-!
# Steps and runs

A step fails while it is planned, or its change is applied (`Session.step_cases`). What one step
preserves a run preserves (`Session.run_invariant`), and runs compose (`Session.run_append`).
-/

namespace Attitude

namespace Session

variable {α : Type} [Ground α]

/-- A step whose plan fails keeps the world, with the requests that it made. -/
theorem step_of_error {s : Session α} {x : Step α} {e : Fault} {r : Router Formula}
    (h : (s.world.plan x).run s.router = (.error e, r)) :
    s.step x = (.error e, { s with router := r }) := by
  simp only [step, h]

/-- A step whose plan succeeds applies the change that it planned. -/
theorem step_of_ok {s : Session α} {x : Step α} {p : Plan α} {r : Router Formula}
    (h : (s.world.plan x).run s.router = (.ok p, r)) :
    s.step x = (.ok p.answer, ⟨s.world.apply p.change, r.apply p.change⟩) := by
  simp only [step, h]

/-- A step fails while it is planned, or its change is applied. -/
theorem step_cases (s : Session α) (x : Step α) :
    (∃ e r, (s.world.plan x).run s.router = (.error e, r) ∧
        s.step x = (.error e, { s with router := r })) ∨
      ∃ p r, (s.world.plan x).run s.router = (.ok p, r) ∧
        s.step x = (.ok p.answer, ⟨s.world.apply p.change, r.apply p.change⟩) := by
  rcases h : (s.world.plan x).run s.router with ⟨e | p, r⟩
  · exact .inl ⟨e, r, rfl, step_of_error h⟩
  · exact .inr ⟨p, r, rfl, step_of_ok h⟩

/-- A step that answers a fault has changed no world. -/
theorem world_of_error {s : Session α} {x : Step α} {e : Fault} (he : (s.step x).1 = .error e) :
    (s.step x).2.world = s.world := by
  obtain ⟨e', r, -, hstep⟩ | ⟨p, r, -, hstep⟩ := s.step_cases x
  · rw [hstep]
  · rw [hstep] at he
    cases he

/-- A run goes on where the first part has stopped. -/
theorem run_append (s : Session α) (xs ys : List (Step α)) :
    (s.run (xs ++ ys)).2 = ((s.run xs).2.run ys).2 := by
  induction xs generalizing s with
  | nil => rfl
  | cons x xs ih => exact ih (s.step x).2

/-- What every step of a kind preserves is preserved by a run of such steps. -/
theorem run_invariant {P : Step α → Prop} {I : Session α → Prop}
    (hstep : ∀ s x, P x → I s → I (s.step x).2) (xs : List (Step α)) (s : Session α)
    (hxs : ∀ x ∈ xs, P x) (hs : I s) : I (s.run xs).2 := by
  induction xs generalizing s with
  | nil => exact hs
  | cons x xs ih =>
    have hx : P x := hxs x (List.mem_cons_self ..)
    exact ih (s.step x).2 (fun y hy => hxs y (List.mem_cons_of_mem _ hy)) (hstep s x hx hs)

end Session

end Attitude
