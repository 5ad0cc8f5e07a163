import Attitude.Coefficient
import Attitude.Symbolic.Expr
import Mathlib.Data.Nat.Cast.Defs

/-!
# Maps between kinds of scalars

A `ScalarHom` takes every operation of one kind of scalar to the same operation of another. The
evaluation of expressions is one (`ScalarHom.eval`), which is why a formula may be run on
expressions first and evaluated afterwards.

The operations are listed by `UnaryOp` and `BinaryOp`, so a homomorphism has two laws besides the
one for whole numbers, and the law of each operation is an instance of them.
-/

namespace Attitude

/-- A map that takes every operation to the same operation. -/
structure ScalarHom (β γ : Type) [Scalar β] [Scalar γ] where
  toFun : β → γ
  map_lit : ∀ n : Nat, toFun (lit n) = lit n
  map_unary : ∀ (op : UnaryOp) a, toFun (op.apply a) = op.apply (toFun a)
  map_binary : ∀ (op : BinaryOp) a b, toFun (op.apply a b) = op.apply (toFun a) (toFun b)

namespace ScalarHom

variable {ν α β γ : Type} [Scalar β] [Scalar γ]

instance : CoeFun (ScalarHom β γ) fun _ => β → γ := ⟨toFun⟩

/-- The evaluation of expressions whose constants keep the whole numbers. -/
def eval [NatCast α] (constant : α → β) (env : ν → β) (h : ∀ n : Nat, constant (lit n) = lit n) :
    ScalarHom (Expr ν α) β where
  toFun := Expr.eval constant env
  map_lit := h
  map_unary := by intro op a; cases op <;> rfl
  map_binary := by intro op a b; cases op <;> rfl

variable (φ : ScalarHom β γ) (a b c : β)

attribute [simp] map_lit

@[simp] theorem map_natCast (n : Nat) : φ (n : β) = (n : γ) := φ.map_lit n
@[simp] theorem map_ofNat (n : Nat) [n.AtLeastTwo] : φ (ofNat(n) : β) = (ofNat(n) : γ) :=
  φ.map_lit n
@[simp] theorem map_add : φ (a + b) = φ a + φ b := φ.map_binary .add a b
@[simp] theorem map_sub : φ (a - b) = φ a - φ b := φ.map_binary .sub a b
@[simp] theorem map_mul : φ (a * b) = φ a * φ b := φ.map_binary .mul a b
@[simp] theorem map_neg : φ (-a) = -φ a := φ.map_unary .neg a
@[simp] theorem map_div : φ (a / b) = φ a / φ b := φ.map_binary .div a b
@[simp] theorem map_less : φ (less a b) = less (φ a) (φ b) := φ.map_binary .less a b
@[simp] theorem map_atMost : φ (atMost a b) = atMost (φ a) (φ b) := φ.map_binary .atMost a b
@[simp] theorem map_both : φ (both a b) = both (φ a) (φ b) := φ.map_binary .both a b
@[simp] theorem map_abs : φ (FieldOps.abs a) = FieldOps.abs (φ a) := φ.map_unary .abs a
@[simp] theorem map_min : φ (FieldOps.min a b) = FieldOps.min (φ a) (φ b) := φ.map_binary .min a b
@[simp] theorem map_max : φ (FieldOps.max a b) = FieldOps.max (φ a) (φ b) := φ.map_binary .max a b
@[simp] theorem map_sqrt : φ (Scalar.sqrt a) = Scalar.sqrt (φ a) := φ.map_unary .sqrt a
@[simp] theorem map_log : φ (Scalar.log a) = Scalar.log (φ a) := φ.map_unary .log a
@[simp] theorem map_sin : φ (Scalar.sin a) = Scalar.sin (φ a) := φ.map_unary .sin a
@[simp] theorem map_cos : φ (Scalar.cos a) = Scalar.cos (φ a) := φ.map_unary .cos a
@[simp] theorem map_asin : φ (Scalar.asin a) = Scalar.asin (φ a) := φ.map_unary .asin a
@[simp] theorem map_atan : φ (Scalar.atan a) = Scalar.atan (φ a) := φ.map_unary .atan a
@[simp] theorem map_atan2 : φ (Scalar.atan2 a b) = Scalar.atan2 (φ a) (φ b) :=
  φ.map_binary .atan2 a b

@[simp]
theorem map_select : φ (select c a b) = select (φ c) (φ a) (φ b) := by
  have hkeep : φ (FieldOps.keep c a) = FieldOps.keep (φ c) (φ a) := φ.map_binary .keep c a
  have hdrop : φ (FieldOps.drop c b) = FieldOps.drop (φ c) (φ b) := φ.map_binary .drop c b
  simp only [select, map_add, hkeep, hdrop]

@[simp]
theorem map_sq : φ (sq a) = sq (φ a) := φ.map_mul a a

/-! ## Coefficient functions -/

@[simp]
theorem map_sinc : φ (Coefficient.sinc a) = Coefficient.sinc (φ a) := by
  simp [Coefficient.sinc, Coefficient.nearZero, Coefficient.seriesBound]

@[simp]
theorem map_cosc : φ (Coefficient.cosc a) = Coefficient.cosc (φ a) := by
  simp [Coefficient.cosc, Coefficient.nearZero, Coefficient.seriesBound]

@[simp]
theorem map_halfCosecant : φ (Coefficient.halfCosecant a) = Coefficient.halfCosecant (φ a) := by
  simp [Coefficient.halfCosecant, Coefficient.nearZero, Coefficient.seriesBound]

end ScalarHom

end Attitude
