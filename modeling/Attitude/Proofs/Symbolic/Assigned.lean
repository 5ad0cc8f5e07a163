import Attitude.Proofs.Grid.Shapes
import Attitude.Proofs.Symbolic.Value

/-!
# Data at assigned symbols

Data has a value in two ways. `Datum.value σ` computes it operation by operation with a number for
every symbol. `Datum.evalAt` reads the data when some symbols have numbers: what is made of
constants was folded into a constant when it was made, with a zero that lost its sign, and the
matrices that are shared within the data are computed once, by their labels.

The two agree if no sign is lost and if a label stands for one matrix. That a reading has no other
value than the one computed is shown for expressions by induction on the operations
(`Reading.Of.eval`), and for symbolic matrices by induction on the derivations
(`Symbolic.readsAs_eval`). The sharing is the subject of `Symbolic.evalOnce_eq`. So an evaluation
that answers gives the value (`Datum.eq_value_of_evalAt`), and with a number for every symbol it
answers (`Datum.evalAt_eq_value`).
-/

namespace Attitude

variable {α : Type} [Ground α]

/-! ## Symbols -/

/-- The variables of an expression, from left to right. -/
def Expr.vars {ν : Type} : Expr ν α → List ν
  | const _ => []
  | var v => [v]
  | unary _ e => e.vars
  | binary _ l r => l.vars ++ r.vars

/-- The symbols within a symbolic matrix. -/
def Symbolic.symbols : Symbolic α → List String
  | entries m => m.toList.flatMap Expr.vars
  | derived _ source => source.symbols
  | derived₂ _ left right => left.symbols ++ right.symbols
  | stored _ s => s.symbols

/-- The symbols within the data. -/
def Datum.symbols : Datum α → List String
  | numeric _ => []
  | symbolic s => s.symbols

/-! ## Readings of a value -/

namespace Reading

/-- The reading has the value `a`, or none unless all symbols are known. -/
inductive Of (known : Prop) : Reading α → α → Prop
  | constant (a : α) : Of known (.constant a) a
  | computed (a : α) : Of known (.computed a) a
  | unknown (h : ¬ known) (a : α) : Of known .unknown a

variable {known : Prop} {x y : Reading α} {a b : α}

omit [Ground α] in
/-- A reading with a value has no other one. -/
theorem Of.eq_of_value? (h : x.Of known a) (hb : x.value? = some b) : b = a := by
  cases h with
  | unknown => cases hb
  | constant => exact (Option.some.inj hb).symm
  | computed => exact (Option.some.inj hb).symm

omit [Ground α] in
/-- With all symbols known the reading has the value. -/
theorem Of.value?_eq (h : x.Of known a) (hknown : known) : x.value? = some a := by
  cases h with
  | unknown h => exact absurd hknown h
  | constant => rfl
  | computed => rfl

variable (hplain : ∀ a : α, Ground.plain a = a)
include hplain

/-- A constant reads as itself, if it loses no sign. -/
theorem of_constant (a : α) : (ofConstant a).Of known a := by
  rw [ofConstant, hplain]
  exact .constant a

/-- A function of a reading, folded if it is constant. -/
theorem Of.map (f : α → α) (h : x.Of known a) : (x.map f).Of known (f a) := by
  cases h with
  | constant => exact of_constant hplain (f a)
  | computed => exact .computed (f a)
  | unknown h => exact .unknown h (f a)

/-- A function of two readings, folded if both are constant. -/
theorem Of.map₂ (f : α → α → α) (h : x.Of known a) (h' : y.Of known b) :
    (map₂ f x y).Of known (f a b) := by
  cases h with
  | constant =>
    cases h' with
    | constant => exact of_constant hplain (f a b)
    | computed => exact .computed (f a b)
    | unknown h => exact .unknown h (f a b)
  | computed =>
    cases h' with
    | constant => exact .computed (f a b)
    | computed => exact .computed (f a b)
    | unknown h => exact .unknown h (f a b)
  | unknown h => cases h' <;> exact .unknown h (f a b)

/-- Each operation on readings reads the operation on values. -/
theorem Of.unary (op : UnaryOp) (h : x.Of known a) : (op.apply x).Of known (op.apply a) := by
  cases op <;> exact h.map hplain _

/-- Each operation on two readings reads the operation on values. -/
theorem Of.binary (op : BinaryOp) (h : x.Of known a) (h' : y.Of known b) :
    (op.apply x y).Of known (op.apply a b) := by
  cases op <;> exact h.map₂ hplain _ h'

/-- **Expressions.** The reading of an expression has no other value than the one computed. -/
theorem Of.eval {ν : Type} {readings : ν → Reading α} {values : ν → α} {e : Expr ν α}
    (h : ∀ v ∈ e.vars, (readings v).Of known (values v)) :
    (e.eval ofConstant readings).Of known (e.eval id values) := by
  induction e with
  | const a => exact of_constant hplain a
  | var v => exact h v (List.mem_singleton_self v)
  | unary op e ih => exact (ih h).unary hplain op
  | binary op l r ihl ihr =>
    have hl := ihl fun v hv => h v (List.mem_append_left _ hv)
    have hr := ihr fun v hv => h v (List.mem_append_right _ hv)
    exact hl.binary hplain op hr

end Reading

/-! ## Symbolic matrices -/

/-- Entry by entry the readings of a matrix of values. -/
structure Grid.ReadsAs (known : Prop) (m : Grid (Reading α)) (n : Grid α) : Prop where
  rows : m.rows = n.rows
  cols : m.cols = n.cols
  entries : ∀ i j (hi : i < m.rows) (hj : j < m.cols) (hi' : i < n.rows) (hj' : j < n.cols),
    (m.get ⟨i, hi⟩ ⟨j, hj⟩).Of known (n.get ⟨i, hi'⟩ ⟨j, hj'⟩)

namespace Symbolic

variable {known : Prop} {m : Grid (Reading α)} {n : Grid α}

/-- Entries are looked up alike. Outside of the matrix there is zero on both sides. -/
theorem ReadsAs.lookup (h : m.ReadsAs known n) (p : Nat × Nat) :
    (Symbolic.lookup m p).Of known (Symbolic.lookup n p) := by
  unfold Symbolic.lookup Grid.get?
  by_cases hp : p.1 < m.rows ∧ p.2 < m.cols
  · have hp' : p.1 < n.rows ∧ p.2 < n.cols := h.rows ▸ h.cols ▸ hp
    rw [dif_pos hp, dif_pos hp']
    exact h.entries _ _ hp.1 hp.2 hp'.1 hp'.2
  · rw [dif_neg hp, dif_neg (h.rows ▸ h.cols ▸ hp)]
    exact .constant _

omit [Ground α] in
/-- What is read off each entry, and what each entry is computed as. -/
theorem readsAs_map {β : Type} {f : β → Reading α} {g : β → α} {body : Grid β}
    (h : ∀ e ∈ body.toList, (f e).Of known (g e)) :
    (body.map f).ReadsAs known (body.map g) where
  rows := rfl
  cols := rfl
  entries i j hi hj _ _ := by
    have hi : i < body.rows := hi
    have hj : j < body.cols := hj
    show Reading.Of known ((body.map f).get (⟨i, hi⟩ : Fin body.rows) (⟨j, hj⟩ : Fin body.cols))
      ((body.map g).get (⟨i, hi⟩ : Fin body.rows) (⟨j, hj⟩ : Fin body.cols))
    rw [Grid.get_map, Grid.get_map]
    exact h _ (Grid.mem_toList.2 ⟨_, _, rfl⟩)

omit [Ground α] in
/-- Readings with values are those of a matrix of these values. -/
theorem ReadsAs.eq_of_all {zero : α} (h : m.ReadsAs known n)
    (hall : m.all (·.value?.isSome) = true) : (m.map fun r => r.value?.getD zero) = n := by
  refine Grid.ext_get h.rows h.cols fun i j => ?_
  have hreads := h.entries i j i.isLt j.isLt (h.rows ▸ i.isLt) (h.cols ▸ j.isLt)
  obtain ⟨a, ha⟩ := Option.isSome_iff_exists.1 (Grid.all_iff.1 hall i j)
  have hentry := Grid.get_map (fun r => r.value?.getD zero) m i j
  rw [ha] at hentry
  exact hentry.trans (hreads.eq_of_value? ha)

omit [Ground α] in
/-- With all symbols known every reading has a value. -/
theorem ReadsAs.all (h : m.ReadsAs known n) (hknown : known) :
    m.all (·.value?.isSome) = true := by
  refine Grid.all_iff.2 fun i j => ?_
  have hreads := h.entries i j i.isLt j.isLt (h.rows ▸ i.isLt) (h.cols ▸ j.isLt)
  rw [hreads.value?_eq hknown]
  rfl

/-- **Symbolic matrices.** The readings of the entries have no other values than those computed. -/
theorem readsAs_eval (hplain : ∀ a : α, Ground.plain a = a) {readings : String → Reading α}
    {σ : String → α} {s : Symbolic α}
    (h : ∀ name ∈ s.symbols, (readings name).Of known (σ name)) :
    (s.eval Reading.ofConstant readings).ReadsAs known (s.eval id σ) := by
  -- on the derivations; the variables of a body are entries of its sources
  induction s with
  | entries m =>
    exact readsAs_map fun e he => .eval hplain fun name hname =>
      h name (List.mem_flatMap.2 ⟨e, he, hname⟩)
  | derived body source ih =>
    exact readsAs_map fun e _ => .eval hplain fun p _ => ReadsAs.lookup (ih h) p
  | derived₂ body left right ihl ihr =>
    have hl := ihl fun name hname => h name (List.mem_append_left _ hname)
    have hr := ihr fun name hname => h name (List.mem_append_right _ hname)
    refine readsAs_map fun e _ => .eval hplain fun v _ => ?_
    cases v with
    | inl p => exact ReadsAs.lookup hl p
    | inr p => exact ReadsAs.lookup hr p
  | stored stamp s ih => exact ih h

/-! ### Labels -/

/-- Within the matrix a label is less than `n`, and stands for the matrix that `f` has under it. -/
def Labelled (f : Nat → Symbolic α) (n : Nat) : Symbolic α → Prop
  | entries _ => True
  | derived _ source => source.Labelled f n
  | derived₂ _ left right => left.Labelled f n ∧ right.Labelled f n
  | stored stamp s => stamp.label < n ∧ f stamp.label = s ∧ s.Labelled f n

variable {f : Nat → Symbolic α} {l : Nat}

omit [Ground α] in
/-- What a label stands for is what the matrix under it evaluates to, with whatever scalars. -/
theorem Labelled.labelledBy {β : Type} [Scalar β] {s : Symbolic α} (h : s.Labelled f l)
    (constant : α → β) (symbols : String → β) :
    s.LabelledBy constant symbols fun label => (f label).eval constant symbols := by
  induction s with
  | entries m => trivial
  | derived body source ih => exact ih h
  | derived₂ body left right ihl ihr => exact ⟨ihl h.1, ihr h.2⟩
  | stored stamp s ih => exact ⟨congrArg _ h.2.1, ih h.2.2⟩

/-- The readings of what is computed once are those of what is computed each time. -/
theorem Labelled.readAt_eq {s : Symbolic α} (h : s.Labelled f l) (assigned : String → Option α) :
    s.readAt assigned =
      s.eval Reading.ofConstant fun name => Reading.ofSymbol (assigned name) :=
  (evalOnce_eq _ _ s (h.labelledBy _ _) .empty fun _ _ => nofun).1

end Symbolic

/-! ## Data -/

namespace Datum

/-- Within the data a label is less than `n`, and stands for the matrix that `f` has under it. -/
def Labelled (f : Nat → Symbolic α) (n : Nat) : Datum α → Prop
  | numeric _ => True
  | symbolic s => s.Labelled f n

variable {f : Nat → Symbolic α} {l : Nat} {d : Datum α} {assigned : String → Option α}
  {σ : String → α} {m : Grid α}

/-- An evaluation fails in one way only. -/
theorem evalAt_cases (d : Datum α) (assigned : String → Option α) :
    (∃ m, d.evalAt assigned = .ok m) ∨ d.evalAt assigned = .error .unassignedSymbol := by
  cases d with
  | numeric m => exact .inl ⟨m, rfl⟩
  | symbolic s =>
    unfold evalAt
    dsimp only
    split
    · exact .inl ⟨_, rfl⟩
    · exact .inr rfl

/-- **An evaluation that answers** gives the value of the data. -/
theorem eq_value_of_evalAt (hd : d.Labelled f l) (hplain : ∀ a : α, Ground.plain a = a)
    (hσ : ∀ name a, assigned name = some a → a = σ name) (h : d.evalAt assigned = .ok m) :
    m = d.value σ := by
  cases d with
  | numeric n => exact (Except.ok.inj h).symm
  | symbolic s =>
    -- some symbols have no number, so nothing is said of readings without a value
    have hreads : (s.readAt assigned).ReadsAs False (s.eval id σ) := by
      rw [Symbolic.Labelled.readAt_eq hd]
      refine Symbolic.readsAs_eval hplain fun name _ => ?_
      cases ha : assigned name with
      | none => exact .unknown id (σ name)
      | some a => exact hσ name a ha ▸ .computed a
    unfold evalAt at h
    dsimp only at h
    split at h
    · next hall =>
      cases h
      exact Symbolic.ReadsAs.eq_of_all hreads hall
    · cases h

/-- **With a number for each of its symbols** data is evaluated. -/
theorem evalAt_eq_value (hd : d.Labelled f l) (hplain : ∀ a : α, Ground.plain a = a)
    (hσ : ∀ name ∈ d.symbols, assigned name = some (σ name)) :
    d.evalAt assigned = .ok (d.value σ) := by
  cases d with
  | numeric n => rfl
  | symbolic s =>
    -- all symbols have numbers, so each reading has a value
    have hreads : (s.readAt assigned).ReadsAs True (s.eval id σ) := by
      rw [Symbolic.Labelled.readAt_eq hd]
      refine Symbolic.readsAs_eval hplain fun name hname => ?_
      rw [hσ name hname]
      exact .computed (σ name)
    have hall := Symbolic.ReadsAs.all hreads trivial
    unfold evalAt
    dsimp only
    rw [if_pos hall, Symbolic.ReadsAs.eq_of_all hreads hall]
    rfl

end Datum

end Attitude
