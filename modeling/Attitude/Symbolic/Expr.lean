import Attitude.Scalar.Basic

/-!
# Expressions

An expression is a scalar that is not computed yet: it is built from constants and variables by the
scalar operations. Every formula can be run on expressions, because expressions are scalars
themselves.

`Expr.eval` computes an expression in any kind of scalar. It takes each operation on expressions to
the same operation on values; the lemmas say so one operation at a time.
-/

namespace Attitude

/-- The scalar operations of one argument. -/
inductive UnaryOp where
  | neg | abs | sqrt | log | sin | cos | asin | atan
  deriving DecidableEq, Repr

/-- The scalar operations of two arguments. -/
inductive BinaryOp where
  | add | sub | mul | div | less | atMost | both | keep | drop | min | max | atan2
  deriving DecidableEq, Repr

/-- The operation on a kind of scalar. -/
def UnaryOp.apply {α : Type} [Scalar α] : UnaryOp → α → α
  | neg => (- ·)
  | abs => FieldOps.abs
  | sqrt => Scalar.sqrt
  | log => Scalar.log
  | sin => Scalar.sin
  | cos => Scalar.cos
  | asin => Scalar.asin
  | atan => Scalar.atan

/-- The operation on a kind of scalar. -/
def BinaryOp.apply {α : Type} [Scalar α] : BinaryOp → α → α → α
  | add => (· + ·)
  | sub => (· - ·)
  | mul => (· * ·)
  | div => (· / ·)
  | less => FieldOps.less
  | atMost => FieldOps.atMost
  | both => FieldOps.both
  | keep => FieldOps.keep
  | drop => FieldOps.drop
  | min => FieldOps.min
  | max => FieldOps.max
  | atan2 => Scalar.atan2

/-- Expressions with variables in `ν` and constants in `α`. -/
inductive Expr (ν α : Type) where
  | const (a : α)
  | var (v : ν)
  | unary (op : UnaryOp) (e : Expr ν α)
  | binary (op : BinaryOp) (l r : Expr ν α)
  deriving DecidableEq, Repr

namespace Expr

variable {ν α β : Type}

instance [NatCast α] : Scalar (Expr ν α) where
  natCast n := .const (n : α)
  add := .binary .add
  sub := .binary .sub
  mul := .binary .mul
  neg := .unary .neg
  div := .binary .div
  less := .binary .less
  atMost := .binary .atMost
  both := .binary .both
  keep := .binary .keep
  drop := .binary .drop
  abs := .unary .abs
  min := .binary .min
  max := .binary .max
  sqrt := .unary .sqrt
  log := .unary .log
  sin := .unary .sin
  cos := .unary .cos
  asin := .unary .asin
  atan := .unary .atan
  atan2 := .binary .atan2

/-- The value of an expression, given the values of its constants and of its variables. -/
def eval [Scalar β] (constant : α → β) (env : ν → β) : Expr ν α → β
  | const a => constant a
  | var v => env v
  | unary op e => op.apply (e.eval constant env)
  | binary op l r => op.apply (l.eval constant env) (r.eval constant env)

/-- The constants of an expression, from left to right. -/
def constants : Expr ν α → List α
  | const a => [a]
  | var _ => []
  | unary _ e => e.constants
  | binary _ l r => l.constants ++ r.constants

section Eval

variable [NatCast α] [Scalar β] (constant : α → β) (env : ν → β)

@[simp]
theorem eval_add (a b : Expr ν α) :
    (a + b).eval constant env = a.eval constant env + b.eval constant env := rfl

@[simp]
theorem eval_sub (a b : Expr ν α) :
    (a - b).eval constant env = a.eval constant env - b.eval constant env := rfl

@[simp]
theorem eval_mul (a b : Expr ν α) :
    (a * b).eval constant env = a.eval constant env * b.eval constant env := rfl

@[simp]
theorem eval_neg (a : Expr ν α) :
    (-a).eval constant env = -(a.eval constant env) := rfl

@[simp]
theorem eval_div (a b : Expr ν α) :
    (a / b).eval constant env = a.eval constant env / b.eval constant env := rfl

@[simp]
theorem eval_less (a b : Expr ν α) :
    (less a b).eval constant env =
      less (a.eval constant env) (b.eval constant env) := rfl

@[simp]
theorem eval_atMost (a b : Expr ν α) :
    (atMost a b).eval constant env =
      atMost (a.eval constant env) (b.eval constant env) := rfl

@[simp]
theorem eval_both (a b : Expr ν α) :
    (both a b).eval constant env =
      both (a.eval constant env) (b.eval constant env) := rfl

@[simp]
theorem eval_select (c a b : Expr ν α) :
    (select c a b).eval constant env =
      select (c.eval constant env) (a.eval constant env) (b.eval constant env) :=
  rfl

end Eval

end Expr

end Attitude
