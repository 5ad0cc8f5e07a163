import Attitude.Fault
import Attitude.Grid
import Attitude.Decimal.Reading

/-!
# Data as it is written down

Data comes as nested lists of numbers, truth values, texts and gaps. A single value is a matrix of
one entry, a list is a column, and a list of equally long lists is a matrix row by row. A single
value may stand in any number of lists.
-/

namespace Attitude

/-- Data as it is written down. -/
inductive Literal where
  | gap
  | truth (b : Bool)
  /-- The number `mantissa / 10 ^ places`. -/
  | number (mantissa : Int) (places : Nat)
  | text (s : String)
  | list (xs : List Literal)
  /-- A record, which is no data. -/
  | record
  deriving Inhabited

namespace Literal

/-- Whether a literal is a list. -/
def isList : Literal → Bool
  | list _ => true
  | _ => false

/-- The entries of a list. -/
def toList? : Literal → Option (List Literal)
  | list xs => some xs
  | _ => none

/-- The value of a single number. A truth value counts as one or zero and a gap as no number. -/
def toFloat : Literal → Except Fault Float
  | gap => .ok Double.notANumber
  | truth b => .ok (if b then 1 else 0)
  | number mantissa places =>
    let x := (Decimal.Number.finite (mantissa < 0) mantissa.natAbs (-(places : Int))).toFloat
    if x.isInf then .error .beyondRange else .ok x
  | text s =>
    match Decimal.Number.ofText? s with
    | some n => .ok n.toFloat
    | none => .error .unreadable
  | list _ => .error .unreadable
  | record => .error .notData

/-- Single values in order, with the lengths of the lists they stood in, the outermost first. -/
structure Layout where
  lengths : List Nat
  values : List Literal

/-- The most levels of lists that data may have. -/
def maxDepth : Nat := 64

/-- Takes up to `depth` levels of lists from some literals. All literals of a level are lists of one
length, or none of them is a list. -/
def unnest : Nat → List Literal → Option Layout
  | 0, xs => if xs.any isList then none else some ⟨[], xs⟩
  | depth + 1, xs =>
    if xs.any isList then
      let inner := xs.filterMap toList?
      let n := (inner.map List.length).headD 0
      if inner.length = xs.length ∧ inner.all (·.length = n) then
        (unnest depth inner.flatten).map fun l => { l with lengths := n :: l.lengths }
      else none
    else some ⟨[], xs⟩

/-- The numbers of rows and columns that the lengths of lists stand for. Deeper lists are no matrix,
unless all that they hold is one value. -/
def Layout.shape? (l : Layout) : Option (Nat × Nat) :=
  match l.lengths with
  | [] => some (1, 1)
  | [n] => some (n, 1)
  | [r, c] => some (r, c)
  | _ => if l.values.length = 1 then some (1, 1) else none

/-- The matrix of some entries row by row; missing entries are filled. -/
def fill {β : Type} (filler : β) (r c : Nat) (xs : Array β) : Grid β :=
  Grid.ofFn r c fun i j => xs.getD (i * c + j) filler

/-- The matrix that a literal stands for, each entry read by `read`. Lists that do not fit together
are found before any entry is read, and too deep ones after that. -/
def toGrid {β : Type} (filler : β) (read : Literal → Except Fault β) (x : Literal) :
    Except Fault (Grid β) :=
  match unnest maxDepth [x] with
  | none => .error .unreadable
  | some l => do
    let ys ← l.values.mapM read
    match l.shape? with
    | some (r, c) => return fill filler r c ys.toArray
    | none => throw .tooDeep

/-- The matrix of numbers that a literal stands for. -/
def toNumbers (x : Literal) : Except Fault (Grid Float) := x.toGrid 0 toFloat

end Literal

end Attitude
