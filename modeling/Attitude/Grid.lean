import Attitude.Quaternion
import Attitude.EulerAngles

/-!
# Matrices of any shape

Data comes from outside in any shape, so it is kept in a `Grid`, which carries its numbers of rows
and columns, until a formula asks for a fixed shape. `toVec3?`, `toQuaternion?`, `toEulerAngles?`
and `toMat3?` read a fixed shape and fail on every other one; the functions called `toGrid` go back.

Entries are kept column by column. An entry has a linear index, which counts down the first column,
then down the second, and so on.
-/

namespace Attitude

/-- A matrix of any shape, kept column by column. -/
structure Grid (α : Type) where
  rows : Nat
  cols : Nat
  columns : Vector (Vector α rows) cols

namespace Grid

variable {α β γ : Type}

/-- The entry in row `i` and column `j`. -/
def get (m : Grid α) (i : Fin m.rows) (j : Fin m.cols) : α := m.columns[j][i]

/-- The matrix of the given shape whose entry in row `i` and column `j` is `f i j`. -/
def ofFn (rows cols : Nat) (f : Fin rows → Fin cols → α) : Grid α :=
  ⟨rows, cols, Vector.ofFn fun j => Vector.ofFn fun i => f i j⟩

/-- Grids of one shape are equal if their entries are. -/
@[ext (iff := false)]
theorem ext_get {a b : Grid α} (hr : a.rows = b.rows) (hc : a.cols = b.cols)
    (h : ∀ i j, a.get i j = b.get (i.cast hr) (j.cast hc)) : a = b := by
  obtain ⟨r, c, u⟩ := a
  obtain ⟨r', c', v⟩ := b
  obtain rfl : r = r' := hr
  obtain rfl : c = c' := hc
  congr 1
  ext j hj i hi
  exact h ⟨i, hi⟩ ⟨j, hj⟩

@[simp]
theorem rows_ofFn (r c : Nat) (f : Fin r → Fin c → α) : (ofFn r c f).rows = r := rfl

@[simp]
theorem cols_ofFn (r c : Nat) (f : Fin r → Fin c → α) : (ofFn r c f).cols = c := rfl

/-- The entries of a grid that is given by a function. -/
@[simp]
theorem get_ofFn (r c : Nat) (f : Fin r → Fin c → α) (i : Fin r) (j : Fin c) :
    (ofFn r c f).get i j = f i j := by
  show (Vector.ofFn fun j => Vector.ofFn fun i => f i j)[j.val][i.val] = f i j
  simp

/-- The entry in row `i` and column `j`, if the matrix has one there. -/
def get? (m : Grid α) (i j : Nat) : Option α :=
  if h : i < m.rows ∧ j < m.cols then some (m.get ⟨i, h.1⟩ ⟨j, h.2⟩) else none

/-- The numbers of rows and columns. -/
def shape (m : Grid α) : List Nat := [m.rows, m.cols]

/-- Applies a function to every entry. -/
def map (f : α → β) (m : Grid α) : Grid β := ofFn m.rows m.cols fun i j => f (m.get i j)

/-- The matrix of the positions of `m`. -/
def positions (m : Grid α) : Grid (Nat × Nat) := ofFn m.rows m.cols fun i j => (i.val, j.val)

/-- The entries, row by row. -/
def toLists (m : Grid α) : List (List α) :=
  (List.finRange m.rows).map fun i => (List.finRange m.cols).map fun j => m.get i j

/-- The entries in one list, row by row. -/
def toList (m : Grid α) : List α := m.toLists.flatten

/-- Whether a test holds for every entry. -/
def all (p : α → Bool) (m : Grid α) : Bool := m.toList.all p

/-- Whether a test holds for some entry. -/
def any (p : α → Bool) (m : Grid α) : Bool := m.toList.any p

/-- Rows and columns exchanged. -/
def transpose (m : Grid α) : Grid α := ofFn m.cols m.rows fun i j => m.get j i

/-- The matrix with every entry that stands at `(i, j)` replaced by `a`. -/
def set (m : Grid α) (i j : Nat) (a : α) : Grid α :=
  ofFn m.rows m.cols fun i' j' => if i'.val = i ∧ j'.val = j then a else m.get i' j'

/-- A matrix of one entry. -/
def single (a : α) : Grid α := ofFn 1 1 fun _ _ => a

/-- A matrix of one column. -/
def column (xs : List α) : Grid α := ofFn xs.length 1 fun i _ => xs[i]

/-- The entry of a matrix of one entry. -/
def toSingle? : Grid α → Option α
  | ⟨1, 1, v⟩ => some v[0][0]
  | _ => none

/-- The index that stands for `i` in a dimension of `n` entries which may be stretched from one. -/
def stretch {n r : Nat} (h : n = r ∨ n = 1) (i : Fin r) : Fin n :=
  if h₁ : n = r then i.cast h₁.symm else ⟨0, by omega⟩

/-- Joins two matrices entry by entry. A dimension of one stretches to that of the other matrix;
dimensions that differ otherwise do not fit. -/
def zipWith? (f : α → β → γ) (a : Grid α) (b : Grid β) : Option (Grid γ) :=
  let r := if a.rows = 1 then b.rows else a.rows
  let c := if a.cols = 1 then b.cols else a.cols
  if h : ((a.rows = r ∨ a.rows = 1) ∧ (a.cols = c ∨ a.cols = 1)) ∧
      ((b.rows = r ∨ b.rows = 1) ∧ (b.cols = c ∨ b.cols = 1)) then
    some (ofFn r c fun i j =>
      f (a.get (stretch h.1.1 i) (stretch h.1.2 j)) (b.get (stretch h.2.1 i) (stretch h.2.2 j)))
  else none

/-! ### Fixed shapes -/

/-- Reads a column of three. -/
def toVec3? : Grid α → Option (Vec3 α)
  | ⟨3, 1, v⟩ => some ⟨v[0][0], v[0][1], v[0][2]⟩
  | _ => none

/-- Reads a column of four, scalar part first. -/
def toQuaternion? : Grid α → Option (Quaternion α)
  | ⟨4, 1, v⟩ => some ⟨v[0][0], v[0][1], v[0][2], v[0][3]⟩
  | _ => none

/-- Reads a column of three as roll, pitch and yaw. -/
def toEulerAngles? : Grid α → Option (EulerAngles α)
  | ⟨3, 1, v⟩ => some ⟨v[0][0], v[0][1], v[0][2]⟩
  | _ => none

/-- Reads three rows and three columns. -/
def toMat3? : Grid α → Option (Mat3 α)
  | ⟨3, 3, v⟩ =>
    some ⟨v[0][0], v[1][0], v[2][0], v[0][1], v[1][1], v[2][1], v[0][2], v[1][2], v[2][2]⟩
  | _ => none

end Grid

variable {α : Type}

/-- A vector as a column of three. -/
def Vec3.toGrid (v : Vec3 α) : Grid α := ⟨3, 1, #v[#v[v.x, v.y, v.z]]⟩

/-- A quaternion as a column of four, scalar part first. -/
def Quaternion.toGrid (q : Quaternion α) : Grid α := ⟨4, 1, #v[#v[q.w, q.x, q.y, q.z]]⟩

/-- Euler angles as a column of roll, pitch and yaw. -/
def EulerAngles.toGrid (e : EulerAngles α) : Grid α := ⟨3, 1, #v[#v[e.roll, e.pitch, e.yaw]]⟩

/-- A matrix of three rows and three columns as a matrix of any shape. -/
def Mat3.toGrid (m : Mat3 α) : Grid α :=
  ⟨3, 3, #v[#v[m.xx, m.yx, m.zx], #v[m.xy, m.yy, m.zy], #v[m.xz, m.yz, m.zz]]⟩

@[simp]
theorem Vec3.toVec3?_toGrid (v : Vec3 α) : v.toGrid.toVec3? = some v := rfl

@[simp]
theorem Quaternion.toQuaternion?_toGrid (q : Quaternion α) : q.toGrid.toQuaternion? = some q := rfl

@[simp]
theorem EulerAngles.toEulerAngles?_toGrid (e : EulerAngles α) :
    e.toGrid.toEulerAngles? = some e := rfl

@[simp]
theorem Mat3.toMat3?_toGrid (m : Mat3 α) : m.toGrid.toMat3? = some m := rfl

namespace Grid

/-! ### Products -/

section Ring

variable [RingOps α]

/-- The product of matrices whose inner dimensions agree: sums of products, each sum from zero. -/
def mul (a b : Grid α) (h : a.cols = b.rows) : Grid α :=
  ofFn a.rows b.cols fun i j =>
    (List.finRange a.cols).foldl (fun s k => s + a.get i k * b.get (k.cast h) j) (lit 0)

/-- The matrix product. A matrix of one entry multiplies every entry of the other one; otherwise the
inner dimensions have to agree. -/
def mul? (a b : Grid α) : Option (Grid α) :=
  match a.toSingle?, b.toSingle? with
  | some x, _ => some (b.map (x * ·))
  | none, some y => some (a.map (· * y))
  | none, none => if h : a.cols = b.rows then some (a.mul b h) else none

/-- The index that stands for `j` where `n` entries are repeated over and over. -/
def cycle {n w : Nat} (h : n ∣ w) (j : Fin w) : Fin n :=
  ⟨j.val % n, Nat.mod_lt _ (Nat.pos_of_dvd_of_pos h (Nat.zero_lt_of_lt j.isLt))⟩

/-- Joins two matrices entry by entry. A matrix of one entry is joined with every entry of the other
one. Otherwise both have the same number of rows, and the columns of one are repeated over and over
until it is as wide as the other one, which must come out even. -/
def join? (f : α → α → α) (a b : Grid α) : Option (Grid α) :=
  match a.toSingle?, b.toSingle? with
  | some x, _ => some (b.map (f x))
  | none, some y => some (a.map (f · y))
  | none, none =>
    let width := max a.cols b.cols
    if h : a.rows = b.rows ∧ a.cols ∣ width ∧ b.cols ∣ width then
      some (ofFn a.rows width fun i j =>
        f (a.get i (cycle h.2.1 j)) (b.get (i.cast h.1) (cycle h.2.2 j)))
    else none

/-- Every entry negated. -/
def neg (m : Grid α) : Grid α := m.map (- ·)

end Ring

/-- The root of the sum of the squares of all entries. -/
def norm [Scalar α] (m : Grid α) : α :=
  Scalar.sqrt (m.toList.foldl (fun s x => s + x * x) (lit 0))

end Grid

end Attitude
