import Attitude.Proofs.Formula.Naturality
import Attitude.Proofs.Registry.Pivot
import Attitude.Proofs.Session.Regularity

/-!
# What a check can do

A check refuses data, and does nothing else. `Guarded E x y` says so of a computation `x` with
checks and the same computation `y` without: `x` is `y`, or it is refused with a fault that `E`
allows. The rules follow the shape of a computation, and the statements below go through the
operations of elements by them.

The check of a rotation computes the matrix of the data, which may fail. It does not fail for data
of the right shape, because a formula on constants makes constants (`Datum.numbers?_apply`). The
check of a logarithm asks whether a skew part is skew-symmetric, which it is unless the tolerance is
negative. `Settings.Rejects` is what is left.
-/

namespace Attitude

open Asking

/-- A check refuses the data. -/
def Fault.OfCheck : Fault → Prop
  | .notSkew | .notRotation _ => True
  | _ => False

/-! ## Computations with and without checks -/

section Guarded

variable {β γ : Type} {E E' : Fault → Prop}

/-- The same outcome, or a refusal that `E` allows. -/
inductive Guarded (E : Fault → Prop) : Except Fault β → Except Fault β → Prop
  | same (x : Except Fault β) : Guarded E x x
  | refused {e : Fault} {y : Except Fault β} (h : E e) : Guarded E (.error e) y

namespace Guarded

/-- What is guarded in both parts is guarded. The second part matters after an answer only. -/
theorem bind {x y : Except Fault β} {f g : β → Except Fault γ} (h : Guarded E x y)
    (hfg : ∀ b, y = .ok b → Guarded E (f b) (g b)) : Guarded E (x >>= f) (y >>= g) := by
  cases h with
  | same =>
    cases x with
    | error e => exact .same _
    | ok b => exact hfg b rfl
  | refused h => exact .refused h

/-- The rule for a part that is the same with and without checks. -/
theorem bind_same {x : Except Fault β} {f g : β → Except Fault γ}
    (hfg : ∀ b, x = .ok b → Guarded E (f b) (g b)) : Guarded E (x >>= f) (x >>= g) :=
  bind (.same x) hfg

/-- A check that is not made without checks. -/
theorem of_meets {x : Except Fault Unit} (h : Meets E (fun _ => True) x) :
    Guarded E x (.ok ()) := by
  cases h with
  | ok => exact .same _
  | error h => exact .refused h

/-- A chain is guarded if each of its steps is. -/
theorem foldlM {δ : Type} {f g : β → δ → Except Fault β} (xs : List δ) (b : β)
    (hfg : ∀ b, ∀ x ∈ xs, Guarded E (f b x) (g b x)) :
    Guarded E (xs.foldlM f b) (xs.foldlM g b) := by
  induction xs generalizing b with
  | nil => exact .same _
  | cons x xs ih =>
    simp only [List.foldlM_cons]
    exact (hfg b x (List.mem_cons_self ..)).bind fun c _ =>
      ih c fun b y hy => hfg b y (List.mem_cons_of_mem x hy)

end Guarded

namespace Asking

/-- From every router that answers what `reg` resolves, `m` does as `n` does, or it is refused with
a fault that `E` allows; and `n` leaves such a router. -/
def Guarded (reg : Registry Formula) (E : Fault → Prop) (m n : Asking β) : Prop :=
  ∀ r, r.Coherent reg → (m.run r = n.run r ∨ ∃ e, (m.run r).1 = .error e ∧ E e) ∧
    (n.run r).2.Coherent reg

variable {reg : Registry Formula} {m n : Asking β}

/-- What does not depend on the checks is guarded. -/
theorem Guarded.of_asks (hn : Asks reg n) : Guarded reg E n n :=
  fun r hr => ⟨.inl rfl, (hn r).1.coherent hr⟩

/-- A value is guarded. -/
theorem Guarded.pure (b : β) : Guarded reg E (pure b) (Pure.pure b) :=
  of_asks (.pure trivial)

/-- Guarded readings are guarded programs. -/
theorem Guarded.lift {x y : Except Fault β} (h : Attitude.Guarded E x y) :
    Guarded reg E (liftM x) (liftM y) := by
  intro r hr
  refine ⟨?_, hr⟩
  cases h with
  | same => exact .inl rfl
  | refused h => exact .inr ⟨_, rfl, h⟩

/-- The second part may use what the first one promises. A refusal leaves requests that the other
run makes, too. -/
theorem Guarded.bind_of {P : β → Prop} {f g : β → Asking γ} (h : Guarded reg E m n)
    (hn : Fulfils reg E' P n) (hfg : ∀ b, P b → Guarded reg E (f b) (g b)) :
    Guarded reg E (m >>= f) (n >>= g) := by
  intro r hr
  obtain ⟨hm, hr'⟩ := h r hr
  obtain ⟨hb, -⟩ := hn r hr
  rw [run_bind, run_bind]
  -- on whether the run without checks gets past its first part
  rcases hrun : n.run r with ⟨e | b, r'⟩
  · rw [hrun] at hm hr'
    -- it fails there: the other run has failed alike, or was refused before
    refine ⟨?_, hr'⟩
    obtain hm | ⟨e', hm, he'⟩ := hm
    · exact .inl (by rw [hm])
    · rcases hrun' : m.run r with ⟨x, r''⟩
      rw [hrun'] at hm
      obtain rfl : x = .error e' := hm
      exact .inr ⟨e', rfl, he'⟩
  · rw [hrun] at hm hr' hb
    -- it answers: the other run goes on alike, or was refused
    obtain ⟨hf, hr''⟩ := hfg b (hb.answer rfl) r' hr'
    refine ⟨?_, hr''⟩
    obtain hm | ⟨e', hm, he'⟩ := hm
    · rw [hm]
      exact hf
    · rcases hrun' : m.run r with ⟨x, r''⟩
      rw [hrun'] at hm
      obtain rfl : x = .error e' := hm
      exact .inr ⟨e', rfl, he'⟩

/-- Programs one after the other, where the second needs nothing of the first. -/
theorem Guarded.bind {f g : β → Asking γ} (h : Guarded reg E m n) (hn : Asks reg n)
    (hfg : ∀ b, Guarded reg E (f b) (g b)) : Guarded reg E (m >>= f) (n >>= g) :=
  h.bind_of (.of_ensures hn) fun b _ => hfg b

/-- The rule for a part that asks nothing. -/
theorem Guarded.read {x y : Except Fault β} {f g : β → Asking γ} (h : Attitude.Guarded E x y)
    (hfg : ∀ b, y = .ok b → Guarded reg E (f b) (g b)) :
    Guarded reg E (liftM x >>= f) (liftM y >>= g) :=
  (Guarded.lift h).bind_of (.lift (.self y)) hfg

/-- The rule for a part that asks nothing and is the same with and without checks. -/
theorem Guarded.read_same {x : Except Fault β} {f g : β → Asking γ}
    (hfg : ∀ b, x = .ok b → Guarded reg E (f b) (g b)) :
    Guarded reg E (liftM x >>= f) (liftM x >>= g) :=
  .read (.same x) hfg

end Asking

end Guarded

/-! ## Constants stay constants -/

section Constants

variable {ν α : Type} [Ground α]

/-- Operations on constants are constants. -/
theorem UnaryOp.constant_apply (op : UnaryOp) {x : Reading α} (hx : x.constant?.isSome) :
    (op.apply x).constant?.isSome := by
  cases x with
  | constant a => cases op <;> rfl
  | computed a => cases hx
  | unknown => cases hx

/-- Operations on two constants are constants. -/
theorem BinaryOp.constant_apply (op : BinaryOp) {x y : Reading α} (hx : x.constant?.isSome)
    (hy : y.constant?.isSome) : (op.apply x y).constant?.isSome := by
  cases x with
  | constant a =>
    cases y with
    | constant b => cases op <;> rfl
    | computed b => cases hy
    | unknown => cases hy
  | computed a => cases hx
  | unknown => cases hx

/-- An expression in constants is a constant. -/
theorem Expr.constant_eval {env : ν → Reading α} (henv : ∀ v, (env v).constant?.isSome)
    (e : Expr ν α) : (e.eval Reading.ofConstant env).constant?.isSome := by
  induction e with
  | const a => rfl
  | var v => exact henv v
  | unary op e ih => exact op.constant_apply ih
  | binary op l r ihl ihr => exact op.constant_apply ihl ihr

/-- A transform of constants has constants, of the shape of its result. -/
theorem Datum.numbers?_apply {f : Transform α} {d d' : Datum α} (hd : d.numbers?.isSome)
    (h : d.apply f = .ok d') : ∃ m, d'.numbers? = some m ∧ m.shape = d'.shape := by
  cases d with
  | numeric n =>
    obtain ⟨m, -, rfl⟩ := exists_of_map_eq_ok h
    exact ⟨m, rfl, rfl⟩
  | symbolic s =>
    obtain ⟨body, -, rfl⟩ := exists_of_map_eq_ok h
    have hknown : s.reading.all (·.constant?.isSome) = true := by
      simp only [Datum.numbers?, Symbolic.numbers?] at hd
      split at hd
      · next hall => exact hall
      · cases hd
    -- outside of the matrix there is a zero, which is a constant, too
    have hlookup (v : Nat × Nat) : (Symbolic.lookup s.reading v).constant?.isSome := by
      unfold Symbolic.lookup Grid.get?
      split
      · exact Grid.all_iff.1 hknown _ _
      · rfl
    have hreading : (Symbolic.derived body s).reading =
        body.map (Expr.eval Reading.ofConstant (Symbolic.lookup s.reading)) := rfl
    have hall : (Symbolic.derived body s).reading.all (·.constant?.isSome) = true := by
      rw [hreading, Grid.all, Grid.toList_map, List.all_map, List.all_eq_true]
      exact fun e _ => Expr.constant_eval hlookup e
    exact ⟨_, if_pos hall, rfl⟩

end Constants

/-! ## Links

No link of a chain is the vector of a matrix, which is the one formula that refuses data. -/

/-- A leg is one of the rules that are registered. -/
theorem Registry.get?_of_leg {ρ : Type} {reg : Registry ρ} {d : Direction} {t : Tag} {f : ρ}
    (h : reg.leg d t = .ok f) :
    reg.toCanonical.get? t = some f ∨ reg.fromCanonical.get? t = some f := by
  cases d with
  | toCanonical =>
    simp only [leg] at h
    cases hg : reg.toCanonical.get? t with
    | none => rw [hg] at h; cases h
    | some g => rw [hg] at h; cases h; exact .inl rfl
  | fromCanonical =>
    simp only [leg] at h
    cases hg : reg.fromCanonical.get? t with
    | none => rw [hg] at h; cases h
    | some g => rw [hg] at h; cases h; exact .inr rfl

namespace Catalog

variable {src dst k : Key} {l : Link Formula}

/-- No built-in leg is the map that checks for symmetry. -/
theorem leg_ne_vee {d : Direction} {t : Tag} {f : Formula}
    (h : builtinRegistry.leg d t = .ok f) : f ≠ .vee := by
  have hmem := (Registry.get?_of_leg h).imp Table.mem_of_get?_ofList Table.mem_of_get?_ofList
  rintro rfl
  simp at hmem

/-- No built-in direct rule is that map. -/
theorem direct_ne_vee {p : Tag × Tag} {f : Formula}
    (h : builtinRegistry.direct.get? p = some f) : f ≠ .vee := by
  have hmem := Table.mem_of_get?_ofList h
  rintro rfl
  simp at hmem

/-- So no link to or from the canonical encoding is that map. -/
theorem canonicalLink_ne_vee {d : Direction} (h : builtinRegistry.canonicalLink d k = .ok l) :
    l ≠ .rule .vee := by
  obtain ⟨⟨t, r⟩, hfind, -⟩ := exists_of_bind_eq_ok h
  obtain ⟨rfl, hr⟩ := Registry.find_cases hfind
  by_cases hc : r.canonical = t
  · rw [Registry.canonicalLink_of_canonical d hr hc] at h
    cases h
    exact nofun
  · rw [Registry.canonicalLink_of_not_canonical d hr hc] at h
    obtain ⟨f, hf, rfl⟩ := exists_of_map_eq_ok h
    exact fun e => leg_ne_vee hf (Link.rule.inj e)

/-- So no route has that map for a link. -/
theorem resolve_ne_vee {route : Route Formula}
    (h : builtinRegistry.resolve src dst = .ok route) : ∀ l ∈ route.links, l ≠ .rule .vee := by
  cases Registry.resolve_eq_ok_iff.1 h with
  | copy => simp
  | direct _ _ _ hd => simpa using direct_ne_vee hd
  | pivot ha hb hne _ hp =>
    obtain ⟨hs, -⟩ := Registry.pivot_ok hp
    obtain ⟨m, n, hm, hn, rfl⟩ := (Registry.pivot_eq_ok_iff ha hb hne hs).1 hp
    intro l hl
    obtain rfl | rfl : l = m ∨ l = n := by simpa using (List.mem_filter.1 hl).1
    · exact canonicalLink_ne_vee hm
    · exact canonicalLink_ne_vee hn

end Catalog

/-! ## Formulas -/

/-- The settings with checks or without. -/
def Settings.withChecks {α : Type} (s : Settings α) (b : Bool) : Settings α :=
  { s with checks := b }

/-- What conversions depend on, with checks or without. -/
def Context.withChecks {α : Type} (ctx : Context α) (b : Bool) : Context α :=
  { ctx with settings := ctx.settings.withChecks b }

variable {α : Type} [Ground α]

/-- What a check refuses: anything where the data is `checked`, and elsewhere only what a negative
tolerance makes it refuse. -/
def Settings.Rejects (s : Settings α) (checked : Prop) (e : Fault) : Prop :=
  e.OfCheck ∧ (Ground.le (lit 0) s.validityTol = true → checked)

namespace Settings

variable {s : Settings α} {p : Prop}

/-- What is refused for its symmetry is rejected. -/
theorem Rejects.of_refuses {e : Fault} (h : (s.withChecks true).Refuses e) : s.Rejects p e := by
  obtain ⟨rfl, hstrict⟩ := h
  exact ⟨trivial, fun hle => absurd (.inr hle) hstrict⟩

/-- A matrix with a rotation vector has three rows and three columns. -/
theorem shape_of_rotationVectorOfMatrix {eps : α} {d d' : Datum α}
    (h : d.apply (Formula.rotationVectorOfMatrix.transform eps) = .ok d') : d.shape = [3, 3] := by
  by_cases hshape : d.rows = 3 ∧ d.cols = 3
  · exact congrArg₂ (fun r c => [r, c]) hshape.1 hshape.2
  · cases d with
    | numeric m =>
      have hnone : m.toMat3? = none := Grid.toMat3?_eq_none hshape
      obtain ⟨m', h, -⟩ := exists_of_map_eq_ok h
      simp [Formula.transform, Formula.apply, Formula.shaped, hnone] at h
    | symbolic x =>
      have hnone : x.slots.toMat3? = none := Grid.toMat3?_eq_none hshape
      obtain ⟨m', h, -⟩ := exists_of_map_eq_ok h
      simp [Formula.transform, Formula.apply, Formula.shaped, hnone] at h

/-- Without checks the check of a formula does nothing, and with checks it may refuse. -/
theorem applyFormula_guarded_of {f : Formula} {h : Held α} {E : Fault → Prop}
    (hitself : f ≠ .itself) (hcopy : f ≠ .copy)
    (hcheck : ∀ d, h.datum.apply (f.transform s.eps) = .ok d →
      Meets E (fun _ => True) ((s.withChecks true).checkSkew f h.datum)) :
    Guarded E ((s.withChecks true).applyFormula f h) ((s.withChecks false).applyFormula f h) := by
  rw [applyFormula_eq hitself hcopy, applyFormula_eq hitself hcopy,
    checkSkew_of_unchecked (s := s.withChecks false) rfl]
  exact .bind_same fun d hd => .bind (.of_meets (hcheck d hd)) fun _ _ => .same _

/-- The vector of a matrix may be refused, whatever the tolerance. -/
theorem vee_guarded (h : Held α) :
    Guarded (s.Rejects True) ((s.withChecks true).applyFormula .vee h)
      ((s.withChecks false).applyFormula .vee h) := by
  refine applyFormula_guarded_of (by decide) (by decide) fun _ _ => ?_
  have hinput : Meets (s.Rejects True) (fun _ => True) (h.datum.apply fun _ m => .ok m) := by
    cases h.datum <;> exact .ok trivial
  show Meets _ _ (h.datum.apply (fun _ m => .ok m) >>= _)
  refine .bind hinput fun d _ => ?_
  -- numbers that are not skew-symmetric are refused
  split
  · split
    · exact .ok trivial
    · exact .error ⟨trivial, fun _ => trivial⟩
  · exact .ok trivial

/-- Formulas of two arguments are not checked. -/
theorem applyFormula₂_guarded (f : Formula) (h k : Held α) :
    Guarded (s.Rejects p) ((s.withChecks true).applyFormula₂ f h k)
      ((s.withChecks false).applyFormula₂ f h k) :=
  .same (s.applyFormula₂ f h k)

variable [LawfulDifferences α]

/-- A formula that has to check its matrix within still answers alike: what it checks is a skew
part. -/
theorem applyFormula_guarded {f : Formula} (hf : f ≠ .vee) (h : Held α) :
    Guarded (s.Rejects p) ((s.withChecks true).applyFormula f h)
      ((s.withChecks false).applyFormula f h) := by
  cases f with
  | itself | copy => exact .same _
  | vee => exact absurd rfl hf
  | rotationVectorOfMatrix =>
    refine applyFormula_guarded_of (by decide) (by decide) fun d hd => ?_
    have hshape := shape_of_rotationVectorOfMatrix hd
    exact (checkSkew_skewPart hshape).mono (fun _ => .of_refuses) fun _ => id
  | _ =>
    exact applyFormula_guarded_of (by decide) (by decide) fun d _ =>
      .of_eq_ok (checkSkew_of_no_input _ rfl _) trivial

/-- A link answers alike with checks and without. -/
theorem applyLink_guarded {l : Link Formula} (hl : l ≠ .rule .vee) (h : Held α) :
    Guarded (s.Rejects p) ((s.withChecks true).applyLink h l)
      ((s.withChecks false).applyLink h l) := by
  cases l with
  | copy => exact .same _
  | rule f => exact applyFormula_guarded (fun e => hl (congrArg Link.rule e)) h

/-- A chain answers alike with checks and without. -/
theorem applyRoute_guarded {r : Route Formula} (hr : ∀ l ∈ r.links, l ≠ .rule .vee) (h : Held α) :
    Guarded (s.Rejects p) ((s.withChecks true).applyRoute r h)
      ((s.withChecks false).applyRoute r h) :=
  .foldlM r.links h fun k l hl => applyLink_guarded (hr l hl) k

omit [LawfulDifferences α] in
/-- A formula without a check of its own has an answer for data of its shape. -/
theorem applyFormula_unchecked (s : Settings α) {f : Formula} {a b : List Nat} {h : Held α}
    (hf : f.signature? = some (a, b)) (hinput : (f.skewInput? : Option (Transform α)) = none)
    (hh : h.datum.Fits a) : ∃ d, h.datum.apply (f.transform s.eps) = .ok d ∧ d.shape = b ∧
      s.applyFormula f h = .ok ⟨⟨d, f.understood h.sheet.understood⟩, none⟩ := by
  have hitself : f ≠ .itself := by rintro rfl; cases hf
  have hcopy : f ≠ .copy := by rintro rfl; cases hf
  obtain ⟨d, hd, hshape⟩ := Datum.apply_of_takes (Formula.transform_takes hf s.eps) hh.shape
  refine ⟨d, hd, hshape, ?_⟩
  rw [applyFormula_eq hitself hcopy, hd, checkSkew_of_no_input _ hinput]
  rfl

end Settings

/-! ## Elements -/

omit [Ground α] in
/-- The link to the rotation matrix of a family has no check of its own. -/
theorem Family.unchecked_canonicalLink (f : Family) :
    (Catalog.builtinRegistry.canonicalLink .toCanonical (.tag f.tag) = .ok .copy ∧
        f.shape = [3, 3]) ∨
      ∃ g, Catalog.builtinRegistry.canonicalLink .toCanonical (.tag f.tag) = .ok (.rule g) ∧
        g.signature? = some (f.shape, [3, 3]) ∧
        (g.skewInput? : Option (Transform α)) = none := by
  cases f
  case matrix => exact .inl ⟨rfl, rfl⟩
  all_goals exact .inr ⟨_, rfl, rfl, rfl⟩

namespace Context

variable {ctx : Context α} {h : Held α} {c : ConcreteClass} {p : Prop}

section Builtin

variable (hreg : ctx.registry = Catalog.builtinRegistry)
include hreg

/-- The rotation matrix of data of the right shape is found, whatever is checked. -/
theorem exists_toCanonical_of_fits (hc : c.Regular) (hh : h.datum.Fits c.family.shape) :
    ∃ k, ctx.toCanonical h c.key = .ok k := by
  unfold toCanonical
  rw [hc.key_eq, hreg]
  obtain ⟨hlink, -⟩ | ⟨g, hlink, hsignature, hinput⟩ := c.family.unchecked_canonicalLink (α := α)
  · rw [hlink]
    exact ⟨_, rfl⟩
  · obtain ⟨d, -, -, happly⟩ := ctx.settings.applyFormula_unchecked hsignature hinput hh
    rw [hlink]
    exact ⟨_, happly⟩

/-- The rotation matrix of constants is made of constants. -/
theorem toCanonical_of_numbers (hc : c.Regular) (hh : h.datum.Fits c.family.shape)
    (hn : h.datum.numbers?.isSome) :
    ∃ k m, ctx.toCanonical h c.key = .ok k ∧ k.datum.numbers? = some m ∧ m.shape = [3, 3] := by
  unfold toCanonical
  rw [hc.key_eq, hreg]
  obtain ⟨hlink, hshape⟩ | ⟨g, hlink, hsignature, hinput⟩ :=
    c.family.unchecked_canonicalLink (α := α)
  · -- the data is its own matrix, and is copied
    obtain ⟨m, hm⟩ := Option.isSome_iff_exists.1 hn
    rw [hlink]
    have hmshape : m.shape = [3, 3] :=
      (hh.legible.shape_of_numbers? hm).trans (hh.shape.trans hshape)
    exact ⟨h.copy, m, rfl, hm, hmshape⟩
  · -- a formula without a check of its own, which keeps numbers
    obtain ⟨d, hd, hshape, happly⟩ := ctx.settings.applyFormula_unchecked hsignature hinput hh
    obtain ⟨m, hm, hmshape⟩ := Datum.numbers?_apply hn hd
    rw [hlink]
    exact ⟨_, m, happly, hm, hmshape.trans hshape⟩

/-- Constants are accepted if the check accepts the matrix that is computed from them. -/
theorem checkRotation_eq_ite (hc : c.Regular) (hh : h.datum.Fits c.family.shape)
    (hchecks : ctx.settings.checks = true) (hn : h.datum.numbers?.isSome) :
    ∃ (k : Held α) (R : Mat3 α), ctx.toCanonical h c.key = .ok k ∧
      k.datum.numbers? = some R.toGrid ∧
      ctx.checkRotation c h = if R.isRotation ctx.settings.validityTol then .ok ()
        else .error (.notRotation c.name) := by
  obtain ⟨k, m, hk, hm, hshape⟩ := toCanonical_of_numbers hreg hc hh hn
  obtain ⟨R, rfl⟩ := Grid.exists_mat3 hshape
  obtain ⟨n, hn⟩ := Option.isSome_iff_exists.1 hn
  have hnumbers : k.datum.numbers = .ok R.toGrid := by simp only [Datum.numbers, hm]
  refine ⟨k, R, hk, hm, ?_⟩
  simp only [checkRotation, hchecks, hn, hk, hnumbers, Grid.isRotation_toGrid, bind, Except.bind,
    if_true]

/-- The check of a rotation answers, or says that the data is none. -/
theorem checkRotation_meets (hc : c.Regular) (hh : h.datum.Fits c.family.shape) :
    Meets (ctx.settings.Rejects True) (fun _ => True) (ctx.checkRotation c h) := by
  cases hchecks : ctx.settings.checks with
  | false => exact .of_eq_ok (checkRotation_of_unchecked hchecks c h) trivial
  | true =>
    cases hn : h.datum.numbers? with
    | none =>
      simp only [checkRotation, hchecks, hn, if_true]
      exact .ok trivial
    | some n =>
      obtain ⟨k, R, -, -, hcheck⟩ := checkRotation_eq_ite hreg hc hh hchecks (hn ▸ rfl)
      rw [hcheck]
      split
      · exact .ok trivial
      · exact .error ⟨trivial, fun _ => trivial⟩

/-- Data of the right shape is taken if the check accepts it. -/
theorem takeData_eq (hc : c.Regular) (hshape : h.datum.shape = c.family.shape) :
    ctx.takeData c h = (ctx.checkRotation c h).map fun _ => h.copy := by
  have hfind : ctx.registry.find c.key = .ok (c.family.tag, ⟨c.family.shape, .matrix⟩) := by
    rw [hreg, hc.key_eq, c.family.find]
  have hfits : ¬ h.datum.shape ≠ c.family.shape := not_not_intro hshape
  unfold takeData
  rw [hfind]
  show (if h.datum.shape ≠ c.family.shape then _ else _) = _
  rw [if_neg hfits]
  cases ctx.checkRotation c h <;> rfl

/-- **Taking data.** A check refuses what is no rotation, and else takes what is taken without. -/
theorem takeData_guarded (hc : c.Regular) (hh : h.datum.Legible) :
    Guarded (ctx.settings.Rejects True) ((ctx.withChecks true).takeData c h)
      ((ctx.withChecks false).takeData c h) := by
  unfold takeData
  refine .bind_same fun ⟨t, traits⟩ hfind => ?_
  have hshape : traits.shape = c.family.shape := by
    have hfind : ctx.registry.find c.key = .ok (t, traits) := hfind
    rw [hreg, hc.key_eq, c.family.find] at hfind
    cases hfind
    rfl
  -- the shape is checked first, on both sides by the same traits
  show Guarded _ (do
    if h.datum.shape ≠ traits.shape then throw .wrongShape
    (ctx.withChecks true).checkRotation c h
    pure h.copy) (do
    if h.datum.shape ≠ traits.shape then throw .wrongShape
    (ctx.withChecks false).checkRotation c h
    pure h.copy)
  by_cases hfits : h.datum.shape = traits.shape
  · have hfits' : ¬ h.datum.shape ≠ traits.shape := Decidable.not_not.2 hfits
    have hchecked : (ctx.withChecks true).registry = Catalog.builtinRegistry := hreg
    have hcheck := checkRotation_meets hchecked hc ⟨hfits.trans hshape, hh⟩
    have hunchecked : (ctx.withChecks false).checkRotation c h = .ok () :=
      checkRotation_of_unchecked rfl c h
    rw [if_neg hfits', if_neg hfits', hunchecked]
    exact .bind (.of_meets hcheck) fun _ _ => .same _
  · rw [if_pos hfits, if_pos hfits]
    exact .same _

variable [LawfulDifferences α] {a b : Subject α}

/-! ### Conversions -/

/-- **Conversions** answer alike with checks and without. -/
theorem convert_guarded (h : Held α) (src dst : Key) :
    Asking.Guarded ctx.registry (ctx.settings.Rejects p)
      ((ctx.withChecks true).convert h src dst) ((ctx.withChecks false).convert h src dst) := by
  have hroute : Fulfils ctx.registry (fun _ => True)
      (fun route => Catalog.builtinRegistry.resolve src dst = .ok route) (ctx.route src dst) :=
    hreg ▸ .route ctx (.self _)
  exact (Asking.Guarded.of_asks (ctx.route_asks src dst)).bind_of hroute fun route h' =>
    .lift (Settings.applyRoute_guarded (Catalog.resolve_ne_vee h') h)

/-- The way to the canonical encoding answers alike. -/
theorem toCanonical_guarded (h : Held α) (k : Key) :
    Guarded (ctx.settings.Rejects p) ((ctx.withChecks true).toCanonical h k)
      ((ctx.withChecks false).toCanonical h k) :=
  .bind_same fun _ hl =>
    Settings.applyLink_guarded (Catalog.canonicalLink_ne_vee (hreg ▸ hl)) h

/-- The way from the canonical encoding answers alike. -/
theorem fromCanonical_guarded (h : Held α) (k : Key) :
    Guarded (ctx.settings.Rejects p) ((ctx.withChecks true).fromCanonical h k)
      ((ctx.withChecks false).fromCanonical h k) :=
  .bind_same fun _ hl =>
    Settings.applyLink_guarded (Catalog.canonicalLink_ne_vee (hreg ▸ hl)) h

/-- The matrix of an element is found alike. -/
theorem rotationMatrix_guarded (a : Subject α) :
    Guarded (ctx.settings.Rejects p) ((ctx.withChecks true).rotationMatrix a)
      ((ctx.withChecks false).rotationMatrix a) :=
  toCanonical_guarded hreg a.held a.cls.key

theorem coordinates_guarded (a : Subject α) (k : Key) :
    Asking.Guarded ctx.registry (ctx.settings.Rejects p)
      ((ctx.withChecks true).coordinates a k) ((ctx.withChecks false).coordinates a k) :=
  convert_guarded hreg a.held a.cls.key k

/-! ### Taking data -/

/-- A matrix is refused if it is no rotation, and else taken alike. -/
theorem takeMatrix_guarded (hc : c.Regular) (hh : h.datum.Legible) :
    Guarded (ctx.settings.Rejects True) ((ctx.withChecks true).takeMatrix c h)
      ((ctx.withChecks false).takeMatrix c h) := by
  unfold takeMatrix
  by_cases hshape : h.datum.shape = [3, 3]
  · have hshape' : ¬ h.datum.shape ≠ [3, 3] := Decidable.not_not.2 hshape
    rw [if_neg hshape', if_neg hshape']
    exact .bind (fromCanonical_guarded hreg h c.key) fun k hk =>
      takeData_guarded hreg hc ((Datum.closed_legible.fromCanonical hh c.key).answer hk)
  · rw [if_pos hshape, if_pos hshape]
    exact .same _

/-- A draw is taken alike, unless rounding has made it no rotation. -/
theorem takeDraw_guarded (hc : c.Regular) (q : Quaternion α) :
    Guarded (ctx.settings.Rejects True) ((ctx.withChecks true).takeDraw c q)
      ((ctx.withChecks false).takeDraw c q) := by
  have hmatrix : (Held.fresh (.numeric q.toDrawnMatrix.toGrid) : Held α).datum.Legible := trivial
  have htake := takeMatrix_guarded hreg hc hmatrix
  unfold takeDraw
  cases c.family with
  | matrix | quaternion | rotationVector => exact .same _
  | euler | rodrigues => exact htake

/-- An exponential is refused if its data is no rotation, and else found alike. -/
theorem exp_guarded {c : ElementClass} (hc : c.Regular) (hh : h.datum.Legible) :
    Asking.Guarded ctx.registry (ctx.settings.Rejects True) ((ctx.withChecks true).exp c h)
      ((ctx.withChecks false).exp c h) := by
  unfold exp
  by_cases hshape : h.datum.shape = [3, 1]
  · have hshape' : ¬ h.datum.shape ≠ [3, 1] := Decidable.not_not.2 hshape
    rw [if_neg hshape', if_neg hshape']
    have hlegible : Fulfils ctx.registry (fun _ => True) (fun k => k.datum.Legible)
        ((ctx.withChecks false).convert h (.tag .rotationVector) c.key) :=
      .of_ensures (Datum.closed_legible.convert hh (ctx.withChecks false) _ _)
    exact (convert_guarded hreg h _ _).bind_of hlegible fun k hk => .read_same fun c' hc' =>
      .read (takeData_guarded hreg (hc.of_concrete hc') hk) fun _ _ => .pure _
  · rw [if_pos hshape, if_pos hshape]
    exact .of_asks (.throw _)

/-! ### Operations -/

/-- Products by way of the matrices are found alike. -/
theorem matrixProduct_guarded (a b : Subject α) :
    Guarded (ctx.settings.Rejects p) ((ctx.withChecks true).matrixProduct a b)
      ((ctx.withChecks false).matrixProduct a b) :=
  .bind (rotationMatrix_guarded hreg a) fun _ _ =>
    .bind (rotationMatrix_guarded hreg b) fun _ _ => .same _

/-- **Products** are found alike, as nothing is checked of their result. -/
theorem mul_guarded (a b : Subject α) :
    Asking.Guarded ctx.registry (ctx.settings.Rejects p) ((ctx.withChecks true).mul a b)
      ((ctx.withChecks false).mul a b) := by
  unfold mul
  cases a.cls.family with
  | matrix =>
    exact .read (rotationMatrix_guarded hreg b) fun _ _ => .read_same fun _ _ => .pure _
  | quaternion | rodrigues =>
    exact (coordinates_guarded hreg b _).bind ((ctx.withChecks false).convert_asks _ _ _) fun _ =>
      .lift (Settings.applyFormula₂_guarded _ _ _)
  | rotationVector | euler =>
    exact .read (matrixProduct_guarded hreg a b) fun _ _ =>
      .lift (Settings.applyFormula_guarded (by decide) _)

/-- **Inverses** are found alike, as nothing is checked of their result. -/
theorem inv_guarded (a : Subject α) :
    Guarded (ctx.settings.Rejects p) ((ctx.withChecks true).inv a)
      ((ctx.withChecks false).inv a) := by
  unfold inv
  cases a.cls.family with
  | matrix | rotationVector | rodrigues => exact .same _
  | quaternion => exact Settings.applyFormula_guarded (by decide) _
  | euler =>
    exact .bind (rotationMatrix_guarded hreg a) fun _ _ => .bind_same fun _ _ =>
      Settings.applyFormula_guarded (by decide) _

/-- Comparisons up to a tolerance answer alike. -/
theorem isClose_guarded (tol : α) (a b : Subject α) :
    Guarded (ctx.settings.Rejects p) ((ctx.withChecks true).isClose tol a b)
      ((ctx.withChecks false).isClose tol a b) := by
  unfold isClose
  split
  · exact .same _
  · exact .bind (rotationMatrix_guarded hreg a) fun _ _ =>
      .bind (rotationMatrix_guarded hreg b) fun _ _ => .same _

theorem equal_guarded (a b : Subject α) :
    Guarded (ctx.settings.Rejects p) ((ctx.withChecks true).equal a b)
      ((ctx.withChecks false).equal a b) := by
  unfold equal
  split
  · exact .same _
  · exact .bind (rotationMatrix_guarded hreg a) fun _ _ =>
      .bind (rotationMatrix_guarded hreg b) fun _ _ => .same _

end Builtin

theorem shadow_guarded [LawfulDifferences α] (ctx : Context α) (a : Subject α) :
    Guarded (ctx.settings.Rejects p) ((ctx.withChecks true).shadow a)
      ((ctx.withChecks false).shadow a) := by
  unfold shadow
  cases a.cls.family with
  | rodrigues => exact Settings.applyFormula_guarded (by decide) _
  | _ => exact .same _

end Context

end Attitude
