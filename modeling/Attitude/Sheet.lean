import Attitude.Datum

/-!
# Matrix objects

Matrices are objects: two names may stand for one matrix, and a change through one name shows
through the other. A `Sheet` is what a matrix object holds. A `Held` matrix is one in the course of
a computation, which knows whether it is an object that exists already.
-/

namespace Attitude

/-- The identity of a matrix object. -/
structure MatrixId where
  index : Nat
  deriving DecidableEq, Repr

/-- What a matrix object holds. -/
structure Sheet (α : Type) where
  datum : Datum α
  /-- Positions of zeros that are understood and not written; they show only in text. -/
  understood : List (Nat × Nat) := []

/-- A matrix in the course of a computation. -/
structure Held (α : Type) where
  sheet : Sheet α
  /-- The object that the matrix is, if it is one already. -/
  home : Option MatrixId := none

/-- A position in a matrix; a negative index counts from the end. -/
inductive Position where
  /-- A linear index, column by column. -/
  | linear (k : Int)
  | entry (i j : Int)
  deriving DecidableEq, Repr

namespace Position

/-- An index among `n` entries, counted from the start. -/
def index (n : Nat) (k : Int) : Except Fault Nat :=
  let k := if k < 0 then k + n else k
  if 0 ≤ k ∧ k < n then .ok k.toNat else .error .outOfRange

/-- The row and the column of a position. -/
def locate (rows cols : Nat) : Position → Except Fault (Nat × Nat)
  | linear k => do
    let k ← index (rows * cols) k
    return (k % rows, k / rows)
  | entry i j => do
    let i ← index rows i
    let j ← index cols j
    return (i, j)

end Position

namespace Sheet

variable {α : Type} [Ground α]

/-- Rows and columns exchanged. -/
def transpose (s : Sheet α) : Except Fault (Sheet α) := do
  return ⟨← s.datum.apply transposed, s.understood.map Prod.swap⟩

/-- Every entry negated. -/
def negate (s : Sheet α) : Except Fault (Sheet α) := do
  return ⟨← s.datum.apply negated, s.understood⟩

/-- The positions of a matrix product where every term has a factor that is understood. -/
def understoodProduct (a b : Sheet α) : List (Nat × Nat) :=
  if a.datum.shape = [1, 1] then b.understood
  else if b.datum.shape = [1, 1] then a.understood
  else (List.range a.datum.rows).flatMap fun i =>
    ((List.range b.datum.cols).filter fun j => (List.range a.datum.cols).all fun k =>
      a.understood.contains (i, k) || b.understood.contains (k, j)).map (i, ·)

/-- The matrix product. -/
def product (a b : Sheet α) : Except Fault (Sheet α) := do
  return ⟨← Datum.apply₂ multiplied a.datum b.datum, a.understoodProduct b⟩

/-- The positions of an entrywise product where a factor is understood. A factor that is narrower or
has one entry only is repeated. -/
def understoodEntrywise (a b : Sheet α) (shape : Nat × Nat) : List (Nat × Nat) :=
  let isUnderstood (s : Sheet α) (p : Nat × Nat) : Bool :=
    s.understood.contains (p.1 % s.datum.rows, p.2 % s.datum.cols)
  let positions := (List.range shape.1).flatMap fun i => (List.range shape.2).map (i, ·)
  positions.filter fun p => isUnderstood a p || isUnderstood b p

/-- The entrywise product. It is zero where a factor is understood, whatever the other factor. -/
def entrywiseProduct (a b : Sheet α) : Except Fault (Sheet α) := do
  let d ← Datum.apply₂ (entrywise (· * ·)) a.datum b.datum
  let zeros := a.understoodEntrywise b (d.rows, d.cols)
  if zeros.isEmpty then return ⟨d, []⟩
  return ⟨← d.apply (cleared zeros), zeros⟩

/-- The content with one entry replaced. A zero in its place is written from then on. -/
def setEntry (s : Sheet α) (p : Position) (a : α) : Except Fault (Sheet α) := do
  let (i, j) ← p.locate s.datum.rows s.datum.cols
  return ⟨← s.datum.apply (replaced i j a), s.understood.filter (· ≠ (i, j))⟩

/-- The content with scalars of another type. Where expressions become numbers every zero is
written. -/
def cast (t : ScalarType) (s : Sheet α) : Except Fault (Sheet α) := do
  let d ← s.datum.cast t
  return ⟨d, if s.datum.scalarType = .symbolic ∧ t = .numeric then [] else s.understood⟩

/-- The content with a stamp on a symbolic matrix. -/
def stamp (label : Nat) (s : Sheet α) : Sheet α := { s with datum := s.datum.stamp label }

end Sheet

namespace Held

variable {α : Type}

/-- A new matrix of the given data. -/
def fresh (d : Datum α) : Held α := ⟨⟨d, []⟩, none⟩

/-- A copy: the same content in a new matrix. -/
def copy (h : Held α) : Held α := ⟨h.sheet, none⟩

/-- The data of the matrix. -/
def datum (h : Held α) : Datum α := h.sheet.datum

end Held

end Attitude
