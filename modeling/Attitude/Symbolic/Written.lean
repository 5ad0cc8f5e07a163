import Attitude.Symbolic.Expr

/-!
# Expressions as they are written

In writing, an operation on constants is replaced by its result, in which a zero has no sign, and
two negations cancel. Written expressions are scalars, so every formula can be run on them.
-/

namespace Attitude

/-- An expression as it is written. -/
structure Written (ν α : Type) where
  expr : Expr ν α
  deriving Repr

namespace Written

variable {ν α : Type} [Ground α]

/-- A constant. -/
def ofConstant (a : α) : Written ν α := ⟨.const (Ground.plain a)⟩

/-- A variable. -/
def ofVariable (v : ν) : Written ν α := ⟨.var v⟩

/-- An operation of one argument, carried out on a constant. -/
def unary (op : UnaryOp) : Written ν α → Written ν α
  | ⟨.const a⟩ => ofConstant (op.apply a)
  | ⟨e⟩ => ⟨.unary op e⟩

/-- The negation, which takes another one back. -/
def neg : Written ν α → Written ν α
  | ⟨.unary .neg e⟩ => ⟨e⟩
  | e => unary .neg e

/-- An operation of two arguments, carried out on constants. -/
def binary (op : BinaryOp) : Written ν α → Written ν α → Written ν α
  | ⟨.const a⟩, ⟨.const b⟩ => ofConstant (op.apply a b)
  | ⟨l⟩, ⟨r⟩ => ⟨.binary op l r⟩

instance : Scalar (Written ν α) where
  natCast n := ⟨.const (n : α)⟩
  add := binary .add
  sub := binary .sub
  mul := binary .mul
  neg := neg
  div := binary .div
  less := binary .less
  atMost := binary .atMost
  both := binary .both
  keep := binary .keep
  drop := binary .drop
  abs := unary .abs
  min := binary .min
  max := binary .max
  sqrt := unary .sqrt
  log := unary .log
  sin := unary .sin
  cos := unary .cos
  asin := unary .asin
  atan := unary .atan
  atan2 := binary .atan2

end Written

end Attitude
