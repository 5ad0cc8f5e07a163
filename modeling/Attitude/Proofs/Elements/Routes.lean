import Attitude.Proofs.Elements.Agreement
import Attitude.Proofs.Router.Conversions

/-!
# Conversions of matrices as actions of formulas

Formulas act on matrices, and what they make of a matrix depends on its content alone
(`Settings.action`). The conversions of elements are the ones of this action.
-/

namespace Attitude

variable {α : Type} [Ground α]

namespace Settings

variable {h k : Held α}

/-- What a formula computes does not depend on the object that holds its argument. -/
theorem applyFormula_sheet (s : Settings α) (f : Formula) (h k : Held α)
    (hk : h.sheet = k.sheet) :
    SameOutcome (fun x y => x.sheet = y.sheet) (s.applyFormula f h) (s.applyFormula f k) := by
  by_cases hitself : f = .itself
  · subst hitself
    exact .ok hk
  by_cases hcopy : f = .copy
  · subst hcopy
    exact .ok hk
  have hdatum : h.datum = k.datum := congrArg Sheet.datum hk
  have heq : s.applyFormula f h = s.applyFormula f k := by
    rw [applyFormula_eq hitself hcopy, applyFormula_eq hitself hcopy, hdatum, hk]
  exact (SameOutcome.of_eq heq).mono fun _ _ => congrArg Held.sheet

/-- What formulas do to matrices. -/
def action (s : Settings α) : Action Formula (Held α) (Sheet α) where
  rule := s.applyFormula
  copy := Held.copy
  content := Held.sheet
  content_copy _ := rfl
  content_rule := s.applyFormula_sheet

theorem applyLink_eq (s : Settings α) : s.applyLink = s.action.link := by
  funext h l
  cases l <;> rfl

end Settings

namespace Context

/-- A conversion acts along the route that the router answers. -/
theorem convert_eq (ctx : Context α) (r : Router Formula) (h : Held α) (src dst : Key) :
    ((ctx.convert h src dst).run r).1 =
      ctx.settings.action.convert ctx.registry r h src dst := by
  unfold convert Action.convert Router.answer
  rw [Asking.run_bind, ← Settings.applyLink_eq]
  rcases hrequest : r.request ctx.registry src dst with ⟨e | route, r'⟩
  · have hroute : (ctx.route src dst).run r = (.error e, r') := hrequest
    rw [hroute]
    rfl
  · have hroute : (ctx.route src dst).run r = (.ok route, r') := hrequest
    rw [hroute]
    rfl

/-- The way to the canonical encoding acts by a leg. -/
theorem toCanonical_eq (ctx : Context α) (h : Held α) (k : Key) :
    ctx.toCanonical h k = ctx.settings.action.toCanonical ctx.registry h k := by
  unfold toCanonical Action.toCanonical
  rw [Settings.applyLink_eq]

/-- The way from the canonical encoding acts by a leg. -/
theorem fromCanonical_eq (ctx : Context α) (h : Held α) (k : Key) :
    ctx.fromCanonical h k = ctx.settings.action.fromCanonical ctx.registry h k := by
  unfold fromCanonical Action.fromCanonical
  rw [Settings.applyLink_eq]

end Context

end Attitude
