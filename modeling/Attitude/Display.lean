import Attitude.Decimal.General
import Attitude.Scalar.Double
import Attitude.Sheet

/-!
# Matrices and elements as text

A matrix is written in parentheses after a name: that of the class of an element, or that of its
type of scalars. A column is a list in brackets, any other matrix a list of its rows, one a line.
Numbers are short, and understood zeros are written as two zeros. A matrix of many entries is
abbreviated to its corners.

A constant that occurs more than once in a symbolic matrix is written once, in front of the matrix,
and has a number there that stands for it.
-/

namespace Attitude

namespace Display

open Decimal

/-! ### Expressions -/

/-- The symbol of an operation of two arguments between them, or its name before them. -/
def binaryText : BinaryOp → String → String → String
  | .add, a, b => "(" ++ a ++ "+" ++ b ++ ")"
  | .sub, a, b => "(" ++ a ++ "-" ++ b ++ ")"
  | .mul, a, b => "(" ++ a ++ "*" ++ b ++ ")"
  | .div, a, b => "(" ++ a ++ "/" ++ b ++ ")"
  | .less, a, b => "(" ++ a ++ "<" ++ b ++ ")"
  | .atMost, a, b => "(" ++ a ++ "<=" ++ b ++ ")"
  | .both, a, b => "(" ++ a ++ "&&" ++ b ++ ")"
  | .keep, a, b => "(" ++ a ++ "?" ++ b ++ ":0)"
  | .drop, a, b => "(" ++ a ++ "?0:" ++ b ++ ")"
  | .min, a, b => "fmin(" ++ a ++ "," ++ b ++ ")"
  | .max, a, b => "fmax(" ++ a ++ "," ++ b ++ ")"
  | .atan2, a, b => "atan2(" ++ a ++ "," ++ b ++ ")"

/-- The symbol or the name of an operation before its argument. -/
def unaryText : UnaryOp → String → String
  | .neg, a => "(-" ++ a ++ ")"
  | .abs, a => "fabs(" ++ a ++ ")"
  | .sqrt, a => "sqrt(" ++ a ++ ")"
  | .log, a => "log(" ++ a ++ ")"
  | .sin, a => "sin(" ++ a ++ ")"
  | .cos, a => "cos(" ++ a ++ ")"
  | .asin, a => "asin(" ++ a ++ ")"
  | .atan, a => "atan(" ++ a ++ ")"

/-- Whether two constants are one. -/
def sameConstant (a b : Float) : Bool := a == b || (a.isNaN && b.isNaN)

/-- The constants that occur more than once among some, in the order of their first occurrence. -/
def repeated (xs : List Float) : List Float :=
  let distinct := xs.foldl (fun seen x => if seen.any (sameConstant x) then seen else x :: seen) []
  distinct.reverse.filter fun x => 1 < xs.countP (sameConstant x)

/-- What stands for a constant that has a number. -/
def reference (index : Nat) : String := "@" ++ toString (index + 1)

/-- The text of an expression in symbols, in which the constants of a list are numbered. -/
def exprText (numbered : List Float) : Expr String Float → String
  | .const x =>
    match numbered.findIdx? (sameConstant x) with
    | some index => reference index
    | none => general.text x
  | .var name => name
  | .unary op e => unaryText op (exprText numbered e)
  | .binary op l r => binaryText op (exprText numbered l) (exprText numbered r)

/-! ### Matrices -/

/-- The texts of the entries of a matrix and of what is written in front of it. -/
structure Parts where
  front : String
  entries : Grid String

/-- The texts of the entries of some data, apart from understood zeros. -/
def parts (understood : List (Nat × Nat)) : Datum Float → Parts
  | .numeric m => ⟨"", m.map general.text⟩
  | .symbolic s =>
    let m := s.written.map (·.expr)
    let positions := m.positions.transpose.toList.filter (!understood.contains ·)
    let numbered := repeated <| positions.flatMap fun p =>
      ((m.get? p.1 p.2).map Expr.constants).getD []
    let definition index x := reference index ++ "=" ++ general.text x ++ ", "
    ⟨String.join (numbered.mapIdx definition), m.map (exprText numbered)⟩

/-- The number of entries beyond which a matrix is abbreviated. -/
def manyEntries : Nat := 1000

/-- The number of rows or of columns from which on they are abbreviated. -/
def manyLines : Nat := 7

/-- The first three and the last three of a list with a gap between them. -/
def abbreviated (gap : String) (xs : List String) : List String :=
  xs.take 3 ++ gap :: xs.drop (xs.length - 3)

/-- Texts in brackets. -/
def bracketed (xs : List String) : String := "[" ++ String.intercalate ", " xs ++ "]"

/-- The text of a column. -/
def columnText (xs : List String) : String :=
  bracketed (if manyEntries < xs.length then abbreviated "..." xs else xs)

/-- The lines of a list of rows. Each one but the last ends in a comma and a blank. -/
def lines : List String → List String
  | [] => []
  | [x] => [x]
  | x :: xs => (x ++ ", ") :: lines xs

/-- The text of a matrix row by row. -/
def rowsText (m : Grid String) : String :=
  let many := manyEntries < m.rows * m.cols
  let rows := m.toLists.map fun row =>
    bracketed (if many ∧ manyLines ≤ m.cols then abbreviated "..." row else row)
  let written := if many ∧ manyLines ≤ m.rows then abbreviated "...," (lines rows) else lines rows
  (if m.rows = 1 then "[" else "\n[") ++ String.intercalate "\n " written ++ "]"

/-- The text of a matrix of texts. -/
def gridText (m : Grid String) : String :=
  if m.rows = 0 ∧ m.cols = 0 then "[]"
  else if m.rows = 0 ∨ m.cols = 0 then toString m.rows ++ "x" ++ toString m.cols
  else if m.cols = 1 then
    if m.rows = 1 then String.join m.toList else columnText m.toList
  else rowsText m

/-- The text of the content of a matrix after a name. -/
def sheetText (name : String) (x : Sheet Float) : String :=
  let p := parts x.understood x.datum
  let m := x.understood.foldl (fun m p => m.set p.1 p.2 "00") p.entries
  name ++ "(" ++ p.front ++ gridText m ++ ")"

end Display

end Attitude
