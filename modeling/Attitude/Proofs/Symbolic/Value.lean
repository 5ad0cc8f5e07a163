import Attitude.Conversion
import Attitude.Proofs.Formula.Naturality

/-!
# The value of data under an assignment

`Datum.value σ d` is the matrix of numbers that the data stands for when every symbol has the number
that `σ` gives to it. It has the shape of the data (`rows_value`, `cols_value`).

A transform is natural if it commutes with homomorphisms of scalars, as all transforms of this
library do. The value of what a natural transform makes of data is what it makes of the value
(`value_apply`, `value_apply₂`): running a formula on variables for the entries and evaluating
afterwards is running it on the values of the entries.
-/

namespace Attitude

variable {α : Type}

/-! ## Natural transforms -/

/-- A transform that commutes with homomorphisms, in its result as in its failures. -/
def Transform.Natural (f : Transform α) : Prop :=
  ∀ {β γ : Type} [Scalar β] [Scalar γ] (φ : ScalarHom β γ) (constant : α → β) (m : Grid β),
    (f constant m).map (Grid.map φ) = f (fun a => φ (constant a)) (m.map φ)

/-- A transform of two matrices that commutes with homomorphisms. -/
def Transform₂.Natural (f : Transform₂ α) : Prop :=
  ∀ {β γ : Type} [Scalar β] [Scalar γ] (φ : ScalarHom β γ) (constant : α → β) (a b : Grid β),
    (f constant a b).map (Grid.map φ) = f (fun a => φ (constant a)) (a.map φ) (b.map φ)

theorem natural_transposed : Transform.Natural (transposed (α := α)) := by
  intro β γ _ _ φ constant m
  exact congrArg Except.ok (Grid.map_transpose φ m)

theorem natural_negated : Transform.Natural (negated (α := α)) := by
  intro β γ _ _ φ constant m
  exact congrArg Except.ok (Grid.map_neg φ m)

/-- Replacing an entry by a number is natural. -/
theorem natural_replaced (i j : Nat) (a : α) : Transform.Natural (replaced i j a) := by
  intro β γ _ _ φ constant m
  refine congrArg Except.ok ?_
  simp only [Grid.set, Grid.map_ofFn, Grid.rows_map, Grid.cols_map, Grid.get_map, apply_ite]

theorem natural_cleared (zeros : List (Nat × Nat)) :
    Transform.Natural (cleared (α := α) zeros) := by
  intro β γ _ _ φ constant m
  refine congrArg Except.ok ?_
  simp only [Grid.map_ofFn, Grid.rows_map, Grid.cols_map, Grid.get_map, apply_ite,
    ScalarHom.map_lit]

theorem natural_logarithm : Transform.Natural (logarithm (α := α)) := by
  intro β γ _ _ φ constant m
  refine congrArg Except.ok ?_
  simp only [Grid.map_map, ScalarHom.map_log]

theorem natural_length :
    Transform.Natural (α := α) fun _ m => .ok (Grid.single m.norm) := by
  intro β γ _ _ φ constant m
  refine congrArg Except.ok ?_
  rw [Grid.map_single, Grid.map_norm]

theorem natural_multiplied : Transform₂.Natural (multiplied (α := α)) := by
  intro β γ _ _ φ constant a b
  have h := Grid.map_mul? φ a b
  simp only [multiplied, ← h]
  cases a.mul? b <;> rfl

theorem natural_entrywise_mul :
    Transform₂.Natural (entrywise (α := α) (· * ·)) := by
  intro β γ _ _ φ constant a b
  have h := Grid.map_join? φ φ.map_mul a b
  simp only [entrywise, ← h]
  cases a.join? (· * ·) b <;> rfl

/-- **Formulas** are natural, as they are made of scalar operations. -/
theorem natural_transform (f : Formula) (eps : α) :
    Transform.Natural (f.transform eps) :=
  fun φ constant m => Formula.apply_map φ (constant eps) f [m]

/-- Formulas of two arguments are natural. -/
theorem natural_transform₂ (f : Formula) (eps : α) :
    Transform₂.Natural (f.transform₂ eps) :=
  fun φ constant a b => Formula.apply_map φ (constant eps) f [a, b]

/-! ## Values of symbolic matrices -/

namespace Symbolic

/-- Looking up each entry gives the matrix back. -/
theorem ofFn_lookup [NatCast α] (m : Grid α) {r c : Nat} (hr : m.rows = r) (hc : m.cols = c) :
    (Grid.ofFn r c fun i j => lookup m (i.val, j.val)) = m := by
  subst hr hc
  have hget (i : Fin m.rows) (j : Fin m.cols) : lookup m (i.val, j.val) = m.get i j := by
    simp [lookup, Grid.get?]
  simp only [hget]
  exact m.ofFn_get

variable [Scalar α] (σ : String → α)

/-- A matrix of expressions and its value have equally many rows. -/
theorem rows_eval (s : Symbolic α) : (s.eval id σ).rows = s.rows := by
  induction s with
  | stored stamp s ih => exact ih
  | _ => rfl

/-- A matrix of expressions and its value have equally many columns. -/
theorem cols_eval (s : Symbolic α) : (s.eval id σ).cols = s.cols := by
  induction s with
  | stored stamp s ih => exact ih
  | _ => rfl

/-- Constants evaluate to their numbers. -/
theorem eval_ofNumbers (m : Grid α) : (ofNumbers m).eval id σ = m :=
  (Grid.map_map _ _ m).trans m.map_id

end Symbolic

/-! ## Values of data -/

namespace Datum

variable [Scalar α] (σ : String → α)

/-- The numbers of the data, where `σ` gives the symbols their numbers. -/
def value : Datum α → Grid α
  | numeric m => m
  | symbolic s => s.eval id σ

/-- Data and its value have equally many rows. -/
theorem rows_value (d : Datum α) : (d.value σ).rows = d.rows := by
  cases d with
  | numeric m => rfl
  | symbolic s => exact s.rows_eval σ

/-- Data and its value have equally many columns. -/
theorem cols_value (d : Datum α) : (d.value σ).cols = d.cols := by
  cases d with
  | numeric m => rfl
  | symbolic s => exact s.cols_eval σ

theorem eval_toSymbolic (d : Datum α) : d.toSymbolic.eval id σ = d.value σ := by
  cases d with
  | numeric m => exact Symbolic.eval_ofNumbers σ m
  | symbolic s => rfl

/-- Data of numbers has them for its value, in either scalar type. -/
@[simp]
theorem value_ofNumbers (t : ScalarType) (m : Grid α) : (ofNumbers t m).value σ = m := by
  cases t with
  | numeric => rfl
  | symbolic => exact Symbolic.eval_ofNumbers σ m

/-- The value of the result of a transform is the transform of the value. -/
theorem value_apply {f : Transform α} (hf : f.Natural) (d : Datum α) :
    (d.apply f).map (value σ) = f id (d.value σ) := by
  cases d with
  | numeric m =>
    show ((f id m).map numeric).map (value σ) = f id m
    cases f id m <;> rfl
  | symbolic s =>
    -- the homomorphism that gives a variable the entry at its position
    let φ := ScalarHom.eval (id : α → α) (Symbolic.lookup (s.eval id σ)) fun _ => rfl
    have hslots : s.slots.map φ = s.eval id σ :=
      (Grid.map_ofFn _ _ _ _).trans
        (Symbolic.ofFn_lookup (s.eval id σ) (s.rows_eval σ) (s.cols_eval σ))
    have h := hf φ .const s.slots
    rw [hslots] at h
    refine Eq.trans ?_ h
    show ((f .const s.slots).map fun body => symbolic (.derived body s)).map (value σ) = _
    cases f .const s.slots <;> rfl

/-- The value of what is derived from two symbolic matrices. The body is natural, so evaluating its
variables afterwards is applying it to the values. -/
theorem value_apply₂_symbolic {f : Transform₂ α} (hf : f.Natural) (a b : Symbolic α) :
    ((f .const (Grid.ofFn a.rows a.cols fun i j => .var (.inl (i.val, j.val)))
        (Grid.ofFn b.rows b.cols fun i j => .var (.inr (i.val, j.val)))).map
          fun body => symbolic (.derived₂ body a b)).map (value σ) =
      f id (a.eval id σ) (b.eval id σ) := by
  let left : Grid (Expr Slot α) := Grid.ofFn a.rows a.cols fun i j => .var (.inl (i.val, j.val))
  let right : Grid (Expr Slot α) := Grid.ofFn b.rows b.cols fun i j => .var (.inr (i.val, j.val))
  -- evaluating the body after the transform, with the entries of both sources for its variables
  let φ := ScalarHom.eval (id : α → α)
    (Sum.elim (Symbolic.lookup (a.eval id σ)) (Symbolic.lookup (b.eval id σ))) fun _ => rfl
  have hleft : left.map φ = a.eval id σ :=
    (Grid.map_ofFn _ _ _ _).trans
      (Symbolic.ofFn_lookup (a.eval id σ) (a.rows_eval σ) (a.cols_eval σ))
  have hright : right.map φ = b.eval id σ :=
    (Grid.map_ofFn _ _ _ _).trans
      (Symbolic.ofFn_lookup (b.eval id σ) (b.rows_eval σ) (b.cols_eval σ))
  have h := hf φ .const left right
  rw [hleft, hright] at h
  refine Eq.trans ?_ h
  show ((f .const left right).map _).map (value σ) = _
  cases f .const left right <;> rfl

/-- The value of the result of a transform of two matrices is the transform of their values. -/
theorem value_apply₂ {f : Transform₂ α} (hf : f.Natural) (a b : Datum α) :
    (apply₂ f a b).map (value σ) = f id (a.value σ) (b.value σ) := by
  cases a with
  | numeric m =>
    cases b with
    | numeric n =>
      show ((f id m n).map numeric).map (value σ) = f id m n
      cases f id m n <;> rfl
    | symbolic t =>
      have h := value_apply₂_symbolic σ hf (.ofNumbers m) t
      rwa [Symbolic.eval_ofNumbers] at h
  | symbolic s =>
    have h := value_apply₂_symbolic σ hf s b.toSymbolic
    rwa [eval_toSymbolic] at h

variable {β : Type} [Ground β]

@[simp]
theorem value_stamp (τ : String → β) (label : Nat) (d : Datum β) :
    (d.stamp label).value τ = d.value τ := by
  cases d with
  | numeric m => rfl
  | symbolic s => exact s.eval_stamp label id τ

end Datum

end Attitude
