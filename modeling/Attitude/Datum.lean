import Attitude.Fault
import Attitude.Symbolic.Sharing

/-!
# Data of elements

The data of an element is a matrix of numbers or a symbolic matrix. A formula that is given some
symbolic argument has a symbolic result.

`Transform` is what a formula is from the outside: one definition for every kind of scalar, given
the constants of the data as scalars of that kind.
-/

namespace Attitude

/-- The two types of scalars that data may have. -/
inductive ScalarType where
  | numeric
  | symbolic
  deriving DecidableEq, Repr

namespace ScalarType

/-- The name of a type of scalars. -/
def name : ScalarType → String
  | numeric => "DM"
  | symbolic => "SX"

/-- The type of scalars of a name. -/
def ofName? : String → Option ScalarType
  | "DM" => some numeric
  | "SX" => some symbolic
  | _ => none

end ScalarType

/-- A map on matrices that is defined for every kind of scalar, with constants in `α`. -/
def Transform (α : Type) : Type 1 :=
  ∀ {β : Type} [Scalar β], (α → β) → Grid β → Except Fault (Grid β)

/-- A map on pairs of matrices that is defined for every kind of scalar, with constants in `α`. -/
def Transform₂ (α : Type) : Type 1 :=
  ∀ {β : Type} [Scalar β], (α → β) → Grid β → Grid β → Except Fault (Grid β)

/-- Rows and columns exchanged. -/
def transposed {α : Type} : Transform α := fun _ m => .ok m.transpose

/-- Every entry negated. -/
def negated {α : Type} : Transform α := fun _ m => .ok m.neg

/-- The matrix with one entry replaced by a number. -/
def replaced {α : Type} (i j : Nat) (a : α) : Transform α :=
  fun constant m => .ok (m.set i j (constant a))

/-- The matrix with zeros at some positions. -/
def cleared {α : Type} (zeros : List (Nat × Nat)) : Transform α := fun _ m =>
  .ok (Grid.ofFn m.rows m.cols fun i j =>
    if zeros.contains (i.val, j.val) then lit 0 else m.get i j)

/-- The matrix product. -/
def multiplied {α : Type} : Transform₂ α := fun _ a b =>
  match a.mul? b with
  | some m => .ok m
  | none => .error .unfitProduct

/-- The natural logarithm of every entry. -/
def logarithm {α : Type} : Transform α := fun _ m => .ok (m.map Scalar.log)

/-- Joins two matrices entry by entry. -/
def entrywise {α : Type} (f : ∀ {β : Type} [Scalar β], β → β → β) : Transform₂ α := fun _ a b =>
  match a.join? f b with
  | some m => .ok m
  | none => .error .unfitProduct

/-- One where two scalars are equal as numbers, zero elsewhere. -/
def equality {α : Type} [Scalar α] (a b : α) : α := both (atMost a b) (atMost b a)

/-- One where two scalars are not equal as numbers, zero elsewhere. -/
def inequality {α : Type} [Scalar α] (a b : α) : α := lit 1 - equality a b

/-- Numbers or expressions, in a matrix. -/
inductive Datum (α : Type) where
  | numeric (m : Grid α)
  | symbolic (s : Symbolic α)

namespace Datum

variable {α : Type}

/-- The type of the scalars. -/
def scalarType : Datum α → ScalarType
  | numeric _ => .numeric
  | symbolic _ => .symbolic

/-- The number of rows. -/
def rows : Datum α → Nat
  | numeric m => m.rows
  | symbolic s => s.rows

/-- The number of columns. -/
def cols : Datum α → Nat
  | numeric m => m.cols
  | symbolic s => s.cols

/-- The numbers of rows and columns. -/
def shape (d : Datum α) : List Nat := [d.rows, d.cols]

/-- The data as a symbolic matrix. -/
def toSymbolic : Datum α → Symbolic α
  | numeric m => .ofNumbers m
  | symbolic s => s

/-- The given numbers as data of the given type. -/
def ofNumbers (t : ScalarType) (m : Grid α) : Datum α :=
  match t with
  | .numeric => numeric m
  | .symbolic => symbolic (.ofNumbers m)

section Ground

variable [Ground α]

/-- The numbers of the data, if it consists of constants. -/
def numbers? : Datum α → Option (Grid α)
  | numeric m => some m
  | symbolic s => s.numbers?

/-- The numbers of the data, which must not have symbols left. -/
def numbers (d : Datum α) : Except Fault (Grid α) :=
  match d.numbers? with
  | some m => .ok m
  | none => .error .freeSymbols

/-- The numbers of the data with symbols replaced by what is assigned to them. -/
def evalAt (assigned : String → Option α) (d : Datum α) : Except Fault (Grid α) :=
  match d with
  | numeric m => .ok m
  | symbolic s =>
    let m := s.readAt assigned
    if m.all (·.value?.isSome) then .ok (m.map fun r => r.value?.getD (lit 0))
    else .error .unassignedSymbol

/-- The data with a stamp on a symbolic matrix. -/
def stamp (label : Nat) : Datum α → Datum α
  | numeric m => numeric m
  | symbolic s => symbolic (s.stamp label)

/-- The data as data of another type of scalars. Symbols cannot be cast to numbers. -/
def cast (t : ScalarType) (d : Datum α) : Except Fault (Datum α) :=
  match t with
  | .numeric => d.numbers.map numeric
  | .symbolic => .ok (symbolic d.toSymbolic)

end Ground

variable [Scalar α]

/-- Applies a transform. On symbols it is run on variables for the entries. -/
def apply (f : Transform α) : Datum α → Except Fault (Datum α)
  | numeric m => (f id m).map numeric
  | symbolic s => (f .const s.slots).map fun body => symbolic (.derived body s)

/-- Applies a transform of two matrices. If either is symbolic, it is run on variables for the
entries of both. -/
def apply₂ (f : Transform₂ α) : Datum α → Datum α → Except Fault (Datum α)
  | numeric a, numeric b => (f id a b).map numeric
  | a, b =>
    let a := a.toSymbolic
    let b := b.toSymbolic
    let left : Grid (Expr Slot α) := Grid.ofFn a.rows a.cols fun i j => .var (.inl (i.val, j.val))
    let right : Grid (Expr Slot α) := Grid.ofFn b.rows b.cols fun i j => .var (.inr (i.val, j.val))
    (f .const left right).map fun body => symbolic (.derived₂ body a b)

end Datum

end Attitude
