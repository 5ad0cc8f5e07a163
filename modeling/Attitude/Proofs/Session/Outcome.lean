import Attitude.Proofs.Session.Asking

/-!
# Computations with the same outcome

Two computations have the same outcome if they fail with the same fault or both answer, with
answers that are related. `SameOutcome R` says so of computations that may fail, and `Asking.Same R`
of computations that also ask the router, which they then leave in the same state. The rules follow
the shape of a computation, so two computations are compared by going through both at once.

`Asking.Follows reg R m x` compares a computation that asks with one that does not: from every
router that answers as `reg` resolves, `m` has the outcome of `x` and leaves such a router.
-/

namespace Attitude

variable {α β γ β' γ' : Type}

/-- What is done in two parts and answers has an answer of its first part. -/
theorem exists_of_bind_eq_ok {x : Except Fault β} {f : β → Except Fault γ} {c : γ}
    (h : x >>= f = .ok c) : ∃ b, x = .ok b ∧ f b = .ok c := by
  cases x with
  | error e => cases h
  | ok b => exact ⟨b, rfl, h⟩

/-- What is mapped and answers was an answer before. -/
theorem exists_of_map_eq_ok {x : Except Fault β} {f : β → γ} {c : γ}
    (h : x.map f = .ok c) : ∃ b, x = .ok b ∧ f b = c := by
  cases x with
  | error e => cases h
  | ok b => exact ⟨b, rfl, Except.ok.inj h⟩

/-- The same fault on both sides, or answers that are related by `R`. -/
inductive SameOutcome (R : β → γ → Prop) : Except Fault β → Except Fault γ → Prop
  | ok {b : β} {c : γ} (h : R b c) : SameOutcome R (.ok b) (.ok c)
  | error (e : Fault) : SameOutcome R (.error e) (.error e)

namespace SameOutcome

variable {R : β → γ → Prop} {S : β' → γ' → Prop}

theorem refl (x : Except Fault β) : SameOutcome Eq x x := by
  cases x with
  | error e => exact .error e
  | ok b => exact .ok rfl

theorem of_eq {x y : Except Fault β} (h : x = y) : SameOutcome Eq x y := h ▸ .refl x

/-- What follows same outcomes has same outcomes, if it has for answers that are related. -/
theorem bind {x : Except Fault β} {y : Except Fault γ} {f : β → Except Fault β'}
    {g : γ → Except Fault γ'} (h : SameOutcome R x y)
    (hfg : ∀ b c, R b c → SameOutcome S (f b) (g c)) : SameOutcome S (x >>= f) (y >>= g) := by
  cases h with
  | ok h => exact hfg _ _ h
  | error e => exact .error e

/-- The rule for a part that the other computation has no counterpart of. -/
theorem bind_ok {x : Except Fault β} {c : γ} {f : β → Except Fault β'} {y : Except Fault γ'}
    (h : SameOutcome R x (.ok c)) (hf : ∀ b, R b c → SameOutcome S (f b) y) :
    SameOutcome S (x >>= f) y := by
  cases h with
  | ok h => exact hf _ h

/-- The rule for a part that is the same on both sides. -/
theorem bind_same {x : Except Fault β} {f : β → Except Fault β'} {g : β → Except Fault γ'}
    (hfg : ∀ b, SameOutcome S (f b) (g b)) : SameOutcome S (x >>= f) (x >>= g) :=
  bind (.refl x) fun b _ h => h ▸ hfg b

theorem map {x : Except Fault β} {y : Except Fault γ} {f : β → β'} {g : γ → γ'}
    (h : SameOutcome R x y) (hfg : ∀ b c, R b c → S (f b) (g c)) :
    SameOutcome S (x.map f) (y.map g) := by
  cases h with
  | ok h => exact .ok (hfg _ _ h)
  | error e => exact .error e

theorem map_left {S : β' → γ → Prop} {x : Except Fault β} {y : Except Fault γ} {f : β → β'}
    (h : SameOutcome R x y) (hf : ∀ b c, R b c → S (f b) c) : SameOutcome S (x.map f) y := by
  cases h with
  | ok h => exact .ok (hf _ _ h)
  | error e => exact .error e

/-- The relation of the answers may be weakened. -/
theorem mono {R' : β → γ → Prop} {x : Except Fault β} {y : Except Fault γ}
    (h : SameOutcome R x y) (hR : ∀ b c, R b c → R' b c) : SameOutcome R' x y := by
  cases h with
  | ok h => exact .ok (hR _ _ h)
  | error e => exact .error e

/-- The relation may use what the second computation answers. -/
theorem with_answer {x : Except Fault β} {y : Except Fault γ} (h : SameOutcome R x y) :
    SameOutcome (fun b c => R b c ∧ y = .ok c) x y := by
  cases h with
  | ok h => exact .ok ⟨h, rfl⟩
  | error e => exact .error e

/-- Outcomes compared by way of a third one. -/
theorem trans {δ : Type} {S : γ → δ → Prop} {T : β → δ → Prop} {x : Except Fault β}
    {y : Except Fault γ} {z : Except Fault δ} (h : SameOutcome R x y) (h' : SameOutcome S y z)
    (hT : ∀ b c d, R b c → S c d → T b d) : SameOutcome T x z := by
  cases h with
  | ok h =>
    cases h' with
    | ok h' => exact .ok (hT _ _ _ h h')
  | error e =>
    cases h' with
    | error e => exact .error e

/-- Equal images make the outcomes the same, up to what the images say about the answers. -/
theorem of_map_eq {δ : Type} {f : β → δ} {g : γ → δ} {x : Except Fault β} {y : Except Fault γ}
    (h : x.map f = y.map g) : SameOutcome (fun b c => f b = g c) x y := by
  cases x with
  | error e =>
    cases y with
    | error e' => cases h; exact .error e
    | ok c => cases h
  | ok b =>
    cases y with
    | error e' => cases h
    | ok c => exact .ok (Except.ok.inj h)

/-- Answers that are sent to the same value make equal outcomes. -/
theorem map_eq {δ : Type} {f : β → δ} {g : γ → δ} {x : Except Fault β} {y : Except Fault γ}
    (h : SameOutcome (fun b c => f b = g c) x y) : x.map f = y.map g := by
  cases h with
  | ok h => exact congrArg Except.ok h
  | error e => rfl

/-- Outcomes of one image answer the same, whatever their faults. -/
theorem toOption_map_eq {δ : Type} {f : β → δ} {g : γ → δ} {x : Except Fault β}
    {y : Except Fault γ} (h : SameOutcome (fun b c => f b = g c) x y) :
    x.toOption.map f = y.toOption.map g := by
  cases h with
  | ok h => exact congrArg some h
  | error e => rfl

/-- A chain of steps, by the relation that each of them keeps. -/
theorem foldlM {δ : Type} {f : β → δ → Except Fault β} {g : γ → δ → Except Fault γ}
    (hfg : ∀ b c x, R b c → SameOutcome R (f b x) (g c x)) (xs : List δ) {b : β} {c : γ}
    (h : R b c) : SameOutcome R (xs.foldlM f b) (xs.foldlM g c) := by
  induction xs generalizing b c with
  | nil => exact .ok h
  | cons x xs ih =>
    simp only [List.foldlM_cons]
    exact bind (hfg b c x h) fun _ _ => ih

end SameOutcome

namespace Asking

variable {R : β → γ → Prop} {S : β' → γ' → Prop}

/-- From every router the same outcome, and the same router afterwards. -/
def Same (R : β → γ → Prop) (m : Asking β) (n : Asking γ) : Prop :=
  ∀ r, SameOutcome R (m.run r).1 (n.run r).1 ∧ (m.run r).2 = (n.run r).2

theorem Same.pure {b : β} {c : γ} (h : R b c) : Same R (pure b) (pure c) :=
  fun _ => ⟨.ok h, rfl⟩

theorem Same.lift {x : Except Fault β} {y : Except Fault γ} (h : SameOutcome R x y) :
    Same R (liftM x) (liftM y) :=
  fun _ => ⟨h, rfl⟩

theorem Same.throw (e : Fault) : Same R (throw e) (throw e) :=
  fun _ => ⟨.error e, rfl⟩

theorem Same.refl (m : Asking β) : Same Eq m m :=
  fun _ => ⟨.refl _, rfl⟩

/-- Programs one after the other. The routers in between are equal, so both second parts ask the
same router. -/
theorem Same.bind {m : Asking β} {n : Asking γ} {f : β → Asking β'} {g : γ → Asking γ'}
    (h : Same R m n) (hfg : ∀ b c, R b c → Same S (f b) (g c)) : Same S (m >>= f) (n >>= g) := by
  intro r
  obtain ⟨ho, hr⟩ := h r
  rw [run_bind, run_bind]
  rcases hm : m.run r with ⟨x, r'⟩
  rcases hn : n.run r with ⟨y, r''⟩
  rw [hm, hn] at ho hr
  obtain rfl : r' = r'' := hr
  obtain ⟨h⟩ | ⟨e⟩ := ho
  · exact hfg _ _ h r'
  · exact ⟨.error e, rfl⟩

/-- Readings with same outcomes come first. -/
theorem Same.read {x : Except Fault β} {y : Except Fault γ} {f : β → Asking β'}
    {g : γ → Asking γ'} (h : SameOutcome R x y) (hfg : ∀ b c, R b c → Same S (f b) (g c)) :
    Same S (liftM x >>= f) (liftM y >>= g) :=
  .bind (.lift h) hfg

/-- The rule for a part that is the same on both sides and asks nothing. -/
theorem Same.read_same {x : Except Fault β} {f : β → Asking β'} {g : β → Asking γ'}
    (hfg : ∀ b, Same S (f b) (g b)) : Same S (liftM x >>= f) (liftM x >>= g) :=
  .read (.refl x) fun b _ h => h ▸ hfg b

/-! ## Following a computation that asks nothing -/

/-- From every router that answers what `reg` resolves, the outcome of `x`, and such a router
afterwards. -/
def Follows (reg : Registry Formula) (R : β → γ → Prop) (m : Asking β) (x : Except Fault γ) :
    Prop :=
  ∀ r, r.Coherent reg → SameOutcome R (m.run r).1 x ∧ (m.run r).2.Coherent reg

variable {reg : Registry Formula}

theorem Follows.pure {b : β} {c : γ} (h : R b c) : Follows reg R (pure b) (.ok c) :=
  fun _ hr => ⟨.ok h, hr⟩

theorem Follows.lift {x : Except Fault β} {y : Except Fault γ} (h : SameOutcome R x y) :
    Follows reg R (liftM x) y :=
  fun _ hr => ⟨h, hr⟩

/-- Programs one after the other, with a specification for each. -/
theorem Follows.bind {m : Asking β} {x : Except Fault γ} {f : β → Asking β'}
    {g : γ → Except Fault γ'} (h : Follows reg R m x)
    (hfg : ∀ b c, R b c → Follows reg S (f b) (g c)) : Follows reg S (m >>= f) (x >>= g) := by
  intro r hr
  obtain ⟨ho, hr'⟩ := h r hr
  rw [run_bind]
  rcases hm : m.run r with ⟨y, r'⟩
  rw [hm] at ho hr'
  obtain ⟨hbc⟩ | ⟨e⟩ := ho
  · exact hfg _ _ hbc r' hr'
  · exact ⟨.error e, hr'⟩

/-- A reading with the same outcome comes first. -/
theorem Follows.read {x : Except Fault β} {y : Except Fault γ} {f : β → Asking β'}
    {g : γ → Except Fault γ'} (h : SameOutcome R x y)
    (hfg : ∀ b c, R b c → Follows reg S (f b) (g c)) :
    Follows reg S (liftM x >>= f) (y >>= g) :=
  .bind (.lift h) hfg

/-- A first part that cannot fail, and that the specification leaves out. -/
theorem Follows.bind_ok {m : Asking β} {c : γ} {f : β → Asking β'} {y : Except Fault γ'}
    (h : Follows reg R m (.ok c)) (hf : ∀ b, R b c → Follows reg S (f b) y) :
    Follows reg S (m >>= f) y := by
  intro r hr
  obtain ⟨ho, hr'⟩ := h r hr
  rw [run_bind]
  rcases hm : m.run r with ⟨x, r'⟩
  rw [hm] at ho hr'
  obtain ⟨hbc⟩ := ho
  exact hf _ hbc r' hr'

/-- A request gets what the registry resolves. -/
theorem Follows.route (ctx : Context α) (src dst : Key) :
    Follows ctx.registry Eq (ctx.route src dst) (ctx.registry.resolve src dst) :=
  fun r hr => ⟨.of_eq (hr src dst), (ctx.route_asks src dst r).1.coherent hr⟩

end Asking

end Attitude
