import Attitude.Proofs.Session.Outcome

/-!
# What computations promise

`Meets E P x` says that `x` answers something with `P` or fails with a fault that `E` allows.
`Asking.Fulfils reg E P m` says so of a computation that asks the router, from every router that
answers what `reg` resolves, and that the router goes on to do so.

Both bounds matter. Where no fault is allowed, the computation succeeds; where every fault is, the
statement is one about answers alone.
-/

namespace Attitude

variable {α β γ : Type} {E E' : Fault → Prop} {P P' : γ → Prop} {Q : β → Prop}

/-- An answer with `P`, or a fault with `E`. -/
inductive Meets (E : Fault → Prop) (P : β → Prop) : Except Fault β → Prop
  | ok {b : β} (h : P b) : Meets E P (.ok b)
  | error {e : Fault} (h : E e) : Meets E P (.error e)

namespace Meets

/-- The second step relies on what the first one answers. -/
theorem bind {x : Except Fault β} {f : β → Except Fault γ} (hx : Meets E Q x)
    (hf : ∀ b, Q b → Meets E P (f b)) : Meets E P (x >>= f) := by
  cases hx with
  | ok h => exact hf _ h
  | error h => exact .error h

theorem map {x : Except Fault β} {f : β → γ} (hx : Meets E Q x) (hf : ∀ b, Q b → P (f b)) :
    Meets E P (x.map f) := by
  cases hx with
  | ok h => exact .ok (hf _ h)
  | error h => exact .error h

/-- A contract may be weakened on both sides. -/
theorem mono {x : Except Fault γ} (hx : Meets E P x) (hE : ∀ e, E e → E' e)
    (hP : ∀ c, P c → P' c) : Meets E' P' x := by
  cases hx with
  | ok h => exact .ok (hP _ h)
  | error h => exact .error (hE _ h)

/-- Where any fault is allowed, only answers count. -/
theorem weaken {x : Except Fault γ} (hx : Meets E P x) : Meets (fun _ => True) P x :=
  hx.mono (fun _ _ => trivial) fun _ => id

theorem of_eq_ok {x : Except Fault γ} {c : γ} (h : x = .ok c) (hc : P c) : Meets E P x :=
  h ▸ .ok hc

/-- A contract that says nothing about faults. -/
theorem of_answer {x : Except Fault γ} (h : ∀ c, x = .ok c → P c) :
    Meets (fun _ => True) P x := by
  cases x with
  | ok c => exact .ok (h c rfl)
  | error e => exact .error trivial

/-- What is known of an answer without looking is where it comes from. -/
theorem self (x : Except Fault γ) : Meets (fun _ => True) (fun c => x = .ok c) x :=
  .of_answer fun _ h => h

theorem answer {x : Except Fault γ} (hx : Meets E P x) {c : γ} (h : x = .ok c) : P c := by
  subst h
  cases hx with
  | ok h => exact h

end Meets

namespace Asking

variable {reg : Registry Formula}

/-- From every router that answers what `reg` resolves, an answer with `P` or a fault with `E`, and
such a router afterwards. -/
def Fulfils (reg : Registry Formula) (E : Fault → Prop) (P : β → Prop) (m : Asking β) : Prop :=
  ∀ r, r.Coherent reg → Meets E P (m.run r).1 ∧ (m.run r).2.Coherent reg

theorem Fulfils.pure {c : γ} (h : P c) : Fulfils reg E P (pure c) :=
  fun _ hr => ⟨.ok h, hr⟩

theorem Fulfils.throw {e : Fault} (h : E e) : Fulfils reg E P (throw e : Asking γ) :=
  fun _ hr => ⟨.error h, hr⟩

theorem Fulfils.lift {x : Except Fault γ} (h : Meets E P x) : Fulfils reg E P (liftM x) :=
  fun _ hr => ⟨h, hr⟩

/-- The second relies on what the first one promises. -/
theorem Fulfils.bind {m : Asking β} {f : β → Asking γ} (hm : Fulfils reg E Q m)
    (hf : ∀ b, Q b → Fulfils reg E P (f b)) : Fulfils reg E P (m >>= f) := by
  intro r hr
  obtain ⟨hb, hr'⟩ := hm r hr
  rw [run_bind]
  rcases h : m.run r with ⟨e | b, r'⟩
  · rw [h] at hb hr'
    cases hb with
    | error he => exact ⟨.error he, hr'⟩
  · rw [h] at hb hr'
    cases hb with
    | ok hb => exact hf b hb r' hr'

/-- What is read first may be relied on. -/
theorem Fulfils.read {x : Except Fault β} {f : β → Asking γ} (hx : Meets E Q x)
    (hf : ∀ b, Q b → Fulfils reg E P (f b)) : Fulfils reg E P (liftM x >>= f) :=
  .bind (.lift hx) hf

/-- The rule for a part whose answer is known. -/
theorem Fulfils.read_ok {x : Except Fault β} {b : β} {f : β → Asking γ} (hx : x = .ok b)
    (hf : Fulfils reg E P (f b)) : Fulfils reg E P (liftM x >>= f) :=
  .read (.of_eq_ok hx rfl) fun _ h => h ▸ hf

/-- A contract may be weakened on both sides. -/
theorem Fulfils.mono {m : Asking γ} (hm : Fulfils reg E P m) (hE : ∀ e, E e → E' e)
    (hP : ∀ c, P c → P' c) : Fulfils reg E' P' m :=
  fun r hr => ⟨(hm r hr).1.mono hE hP, (hm r hr).2⟩

/-- Faults may be left out of a contract. -/
theorem Fulfils.weaken {m : Asking γ} (hm : Fulfils reg E P m) :
    Fulfils reg (fun _ => True) P m :=
  hm.mono (fun _ _ => trivial) fun _ => id

/-- What is ensured of every router is fulfilled by those that answer what `reg` resolves. -/
theorem Fulfils.of_ensures {m : Asking γ} (hm : Ensures reg P m) :
    Fulfils reg (fun _ => True) P m :=
  fun r hr => ⟨.of_answer (hm r).2, (hm r).1.coherent hr⟩

/-- An answer to look for, of which something is known. -/
theorem Ensures.look_meets {x : Except Fault β} {f : β → Asking γ} (hx : Meets E Q x)
    (hf : ∀ b, Q b → Ensures reg P (f b)) : Ensures reg P (liftM x >>= f) :=
  .look fun b hb => hf b (hx.answer hb)

/-- A reading that meets a contract, whatever this says of faults. -/
theorem Ensures.lift_meets {x : Except Fault γ} (hx : Meets E P x) : Ensures reg P (liftM x) :=
  .lift fun _ h => hx.answer h

/-- A request gets what the registry resolves. -/
theorem Fulfils.route (ctx : Context α) {src dst : Key} {P : Route Formula → Prop}
    (h : Meets E P (ctx.registry.resolve src dst)) :
    Fulfils ctx.registry E P (ctx.route src dst) := by
  intro r hr
  obtain ⟨houtcome, hr'⟩ := Follows.route ctx src dst r hr
  refine ⟨?_, hr'⟩
  generalize ((ctx.route src dst).run r).1 = x at houtcome ⊢
  generalize ctx.registry.resolve src dst = y at houtcome h
  cases houtcome with
  | ok hb => exact hb ▸ h
  | error e => exact h

end Asking

end Attitude
