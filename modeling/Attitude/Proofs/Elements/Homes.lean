import Attitude.Draw
import Attitude.Proofs.Session.Outcome

/-!
# Whether a result is a new matrix

A matrix in the course of a computation may be an object that exists already. Every link of a chain
makes a new matrix but one, the formula that answers its argument, so what a chain answers is new
unless the chain consists of that formula alone (`Settings.home_of_applyLinks`). A conversion
therefore answers its argument or a new matrix (`Context.home_of_convert`); the product and the
inverse of elements are always new (`Context.home_of_mul`, `Context.home_of_inv`).
-/

namespace Attitude

open Asking

variable {α : Type} [Ground α]

/-- The chain answers its argument: none of its links makes a new matrix. -/
def Passing (links : List (Link Formula)) : Prop := ∀ l ∈ links, l = .rule .itself

instance : DecidablePred Passing :=
  fun links => inferInstanceAs (Decidable (∀ l ∈ links, l = .rule .itself))

namespace Settings

variable {s : Settings α} {h k : Held α}

/-- A formula answers new data, unless it hands on the object that it was given. -/
theorem home_of_applyFormula {f : Formula} (hk : s.applyFormula f h = .ok k) :
    (f = .itself ∧ k = h) ∨ (f ≠ .itself ∧ k.home = none) := by
  cases f with
  | itself =>
    cases hk
    exact .inl ⟨rfl, rfl⟩
  | copy =>
    cases hk
    exact .inr ⟨nofun, rfl⟩
  | _ =>
    obtain ⟨d, -, hk⟩ := exists_of_bind_eq_ok hk
    obtain ⟨_, -, hk⟩ := exists_of_bind_eq_ok hk
    cases hk
    exact .inr ⟨nofun, rfl⟩

/-- A link answers new data, unless its rule hands on the object that it was given. -/
theorem home_of_applyLink {l : Link Formula} (hk : s.applyLink h l = .ok k) :
    (l = .rule .itself ∧ k = h) ∨ (l ≠ .rule .itself ∧ k.home = none) := by
  cases l with
  | copy =>
    cases hk
    exact .inr ⟨nofun, rfl⟩
  | rule f =>
    obtain ⟨rfl, rfl⟩ | ⟨hf, hhome⟩ := home_of_applyFormula hk
    · exact .inl ⟨rfl, rfl⟩
    · exact .inr ⟨fun hl => hf (Link.rule.inj hl), hhome⟩

/-- A chain answers its argument or makes a new matrix. -/
theorem home_of_applyLinks {links : List (Link Formula)} (hk : links.foldlM s.applyLink h = .ok k) :
    (Passing links ∧ k = h) ∨ (¬ Passing links ∧ k.home = none) := by
  induction links generalizing h with
  | nil =>
    cases hk
    exact .inl ⟨nofun, rfl⟩
  | cons l links ih =>
    rw [List.foldlM_cons] at hk
    obtain ⟨h', hh', hk⟩ := exists_of_bind_eq_ok hk
    obtain ⟨rfl, rfl⟩ | ⟨hl, hhome⟩ := home_of_applyLink hh'
    · obtain ⟨hpassing, rfl⟩ | ⟨hnot, hhome⟩ := ih hk
      · exact .inl ⟨List.forall_mem_cons.2 ⟨rfl, hpassing⟩, rfl⟩
      · exact .inr ⟨fun h => hnot (List.forall_mem_cons.1 h).2, hhome⟩
    · -- what a later link answers as it is was made by this one
      refine .inr ⟨fun h => hl (List.forall_mem_cons.1 h).1, ?_⟩
      obtain ⟨-, rfl⟩ | ⟨-, hhome⟩ := ih hk
      · exact hhome
      · exact hhome

/-- A formula of two arguments makes a new matrix. -/
theorem home_of_applyFormula₂ {f : Formula} {h' : Held α} (hk : s.applyFormula₂ f h h' = .ok k) :
    k.home = none := by
  unfold applyFormula₂ at hk
  cases hd : Datum.apply₂ (f.transform₂ s.eps) h.datum h'.datum with
  | error e =>
    rw [hd] at hk
    cases hk
  | ok d =>
    rw [hd] at hk
    cases hk
    rfl

end Settings

/-- The data of an identity is a new matrix. -/
theorem Family.home_identity (f : Family) (t : ScalarType) :
    (f.identity t : Held α).home = none := by
  cases f <;> rfl

namespace Context

variable {ctx : Context α} {a b : Subject α} {h k : Held α} {r r' : Router Formula}

/-- Data that is taken is a copy. -/
theorem home_of_takeData {c : ConcreteClass} (hk : ctx.takeData c h = .ok k) : k.home = none := by
  obtain ⟨⟨t, traits⟩, -, hk⟩ := exists_of_bind_eq_ok hk
  dsimp only at hk
  split at hk
  · cases hk
  · obtain ⟨_, -, hk⟩ := exists_of_bind_eq_ok hk
    cases hk
    rfl

/-- Data that is taken from a matrix is new, as it is copied last. -/
theorem home_of_takeMatrix {c : ConcreteClass} (hk : ctx.takeMatrix c h = .ok k) :
    k.home = none := by
  unfold takeMatrix at hk
  dsimp only at hk
  split at hk
  · cases hk
  · obtain ⟨x, -, hk⟩ := exists_of_bind_eq_ok hk
    exact home_of_takeData hk

theorem home_of_takeDraw {c : ConcreteClass} {q : Quaternion α} (hk : ctx.takeDraw c q = .ok k) :
    k.home = none := by
  unfold takeDraw at hk
  cases hf : c.family with
  | matrix => rw [hf] at hk; cases hk; rfl
  | quaternion => rw [hf] at hk; cases hk; rfl
  | rotationVector => rw [hf] at hk; cases hk; rfl
  | euler => rw [hf] at hk; exact home_of_takeMatrix hk
  | rodrigues => rw [hf] at hk; exact home_of_takeMatrix hk

/-- A conversion that answers applies the links that the router answers. -/
theorem exists_of_convert {src dst : Key}
    (hk : (ctx.convert h src dst).run r = (.ok k, r')) :
    ∃ route, r.answer ctx.registry src dst = .ok route ∧
      ctx.settings.applyRoute route h = .ok k := by
  obtain ⟨route, r'', hroute, hk⟩ := exists_of_run_bind_eq_ok hk
  exact ⟨route, congrArg Prod.fst hroute, (eq_ok_of_run_lift hk).1⟩

/-- A conversion answers its argument or a new matrix. -/
theorem home_of_convert {src dst : Key} (hk : (ctx.convert h src dst).run r = (.ok k, r')) :
    k = h ∨ k.home = none := by
  obtain ⟨route, -, hk⟩ := exists_of_convert hk
  obtain ⟨-, hkh⟩ | ⟨-, hhome⟩ := Settings.home_of_applyLinks hk
  · exact .inl hkh
  · exact .inr hhome

/-- The product of two elements is a new matrix. -/
theorem home_of_mul (hk : (ctx.mul a b).run r = (.ok k, r')) : k.home = none := by
  unfold mul at hk
  split at hk
  · obtain ⟨n, -, hk⟩ := exists_of_run_read_eq_ok hk
    obtain ⟨x, -, hk⟩ := exists_of_run_read_eq_ok hk
    cases hk
    rfl
  · obtain ⟨q, r'', -, hk⟩ := exists_of_run_bind_eq_ok hk
    exact Settings.home_of_applyFormula₂ (eq_ok_of_run_lift hk).1
  · obtain ⟨q, r'', -, hk⟩ := exists_of_run_bind_eq_ok hk
    exact Settings.home_of_applyFormula₂ (eq_ok_of_run_lift hk).1
  · -- no formula of a product hands on its argument
    obtain ⟨m, -, hk⟩ := exists_of_run_read_eq_ok hk
    obtain ⟨hf, -⟩ | ⟨-, hhome⟩ := Settings.home_of_applyFormula (eq_ok_of_run_lift hk).1
    · cases hf
    · exact hhome
  · obtain ⟨m, -, hk⟩ := exists_of_run_read_eq_ok hk
    obtain ⟨hf, -⟩ | ⟨-, hhome⟩ := Settings.home_of_applyFormula (eq_ok_of_run_lift hk).1
    · cases hf
    · exact hhome

/-- The inverse of an element is a new matrix. -/
theorem home_of_inv (hk : ctx.inv a = .ok k) : k.home = none := by
  unfold inv at hk
  -- a transpose, a conjugate and a negative are new, and so is what a formula makes of a
  -- transpose
  split at hk
  · obtain ⟨x, -, hk⟩ := exists_of_bind_eq_ok hk
    cases hk
    rfl
  · obtain ⟨hf, -⟩ | ⟨-, hhome⟩ := Settings.home_of_applyFormula hk
    · cases hf
    · exact hhome
  · obtain ⟨x, -, hk⟩ := exists_of_bind_eq_ok hk
    cases hk
    rfl
  · obtain ⟨x, -, hk⟩ := exists_of_bind_eq_ok hk
    cases hk
    rfl
  · obtain ⟨m, -, hk⟩ := exists_of_bind_eq_ok hk
    obtain ⟨d, -, hk⟩ := exists_of_bind_eq_ok hk
    obtain ⟨hf, -⟩ | ⟨-, hhome⟩ := Settings.home_of_applyFormula hk
    · cases hf
    · exact hhome

end Context

end Attitude
