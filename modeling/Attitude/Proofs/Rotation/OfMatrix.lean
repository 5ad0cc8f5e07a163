import Attitude.Proofs.Exact.Real
import Attitude.Proofs.Rotation.Quaternion
import Mathlib.Tactic.FieldSimp
import Mathlib.Tactic.Linarith
import Mathlib.Tactic.LinearCombination

/-!
# The quaternion of a rotation matrix

Four times the product of two components of a unit quaternion is a signed sum of entries of its
matrix. `Fits q m` collects these ten equations, which together say that `q` is a unit quaternion
with matrix `m`. For a rotation the signed sums satisfy the same relations as products of components
do, so one component other than zero gives all the others: the quaternion is found from whichever
component is divided by.

Which component that is depends on the diagonal. Its square is at least a quarter, because the four
squares add up to one and no other one is larger.
-/

namespace Attitude.Quaternion

variable {q : Quaternion ℝ} {m : Mat3 ℝ}

/-! ## The equations between components and entries -/

/-- Four times each product of two components is what the matrix says. -/
structure Fits (q : Quaternion ℝ) (m : Mat3 ℝ) : Prop where
  ww : 4 * (q.w * q.w) = 1 + m.xx + m.yy + m.zz
  xx : 4 * (q.x * q.x) = 1 + m.xx - m.yy - m.zz
  yy : 4 * (q.y * q.y) = 1 - m.xx + m.yy - m.zz
  zz : 4 * (q.z * q.z) = 1 - m.xx - m.yy + m.zz
  wx : 4 * (q.w * q.x) = m.zy - m.yz
  wy : 4 * (q.w * q.y) = m.xz - m.zx
  wz : 4 * (q.w * q.z) = m.yx - m.xy
  xy : 4 * (q.x * q.y) = m.xy + m.yx
  xz : 4 * (q.x * q.z) = m.xz + m.zx
  yz : 4 * (q.y * q.z) = m.yz + m.zy

/-- The squares add up to a whole: four times their sum is four. -/
theorem Fits.isUnit (h : Fits q m) : q.IsUnit := by
  rw [IsUnit, normSq]
  linarith [h.ww, h.xx, h.yy, h.zz]

/-- The entries of the matrix are sums of the products of components. -/
theorem Fits.toMat3_eq (h : Fits q m) : q.toMat3 = m := by
  rw [Quaternion.toMat3_eq]
  ext
  · linarith [h.ww, h.xx, h.yy, h.zz]
  · linarith [h.xy, h.wz]
  · linarith [h.xz, h.wy]
  · linarith [h.xy, h.wz]
  · linarith [h.ww, h.xx, h.yy, h.zz]
  · linarith [h.yz, h.wx]
  · linarith [h.xz, h.wy]
  · linarith [h.yz, h.wx]
  · linarith [h.ww, h.xx, h.yy, h.zz]

/-- A product of two components follows from their products with a third one that is not zero. -/
theorem product_of_pivot {p a b P A B C : ℝ} (hP : 4 * (p * p) = P) (hp : p ≠ 0)
    (hA : 4 * (p * a) = A) (hB : 4 * (p * b) = B) (h : A * B = P * C) : 4 * (a * b) = C := by
  have hP0 : P ≠ 0 := by
    rw [← hP]
    exact mul_ne_zero four_ne_zero (mul_ne_zero hp hp)
  apply mul_left_cancel₀ hP0
  rw [← h, ← hA, ← hB, ← hP]
  ring

/-- A component divided by four times the pivot, multiplied back. -/
theorem mul_div_four {p A : ℝ} (hp : p ≠ 0) : 4 * (p * (A / (4 * p))) = A := by
  field_simp

/-! ## Four ways to the quaternion

Each one divides by another component. The products with this component are the equations that it
was divided by, its own square is given, and the other products follow from these. -/

section Branches

variable (h : m.IsRotation) {p : ℝ} (hp : p ≠ 0)
include h hp

/-- The quaternion around its scalar part fits, if four times its square is the radicand. -/
theorem fits_byW (hP : 4 * (p * p) = 1 + m.xx + m.yy + m.zz) :
    Fits ⟨p, (m.zy - m.yz) / (4 * p), (m.xz - m.zx) / (4 * p), (m.yx - m.xy) / (4 * p)⟩ m := by
  have e := h.entries
  have product {a b A B C : ℝ} := @product_of_pivot p a b _ A B C hP hp
  -- the equations come as in the structure: squares, products with the scalar part, the others
  constructor <;> dsimp only
  · exact hP
  · apply product (mul_div_four hp) (mul_div_four hp)
    linear_combination e.row₂ + e.row₃ - e.col₁ - 2 * e.xx
  · apply product (mul_div_four hp) (mul_div_four hp)
    linear_combination e.row₁ + e.row₃ - e.col₂ - 2 * e.yy
  · apply product (mul_div_four hp) (mul_div_four hp)
    linear_combination e.row₁ + e.row₂ - e.col₃ - 2 * e.zz
  · exact mul_div_four hp
  · exact mul_div_four hp
  · exact mul_div_four hp
  · apply product (mul_div_four hp) (mul_div_four hp)
    linear_combination -e.yx - e.xy - e.col₁₂ - e.row₁₂
  · apply product (mul_div_four hp) (mul_div_four hp)
    linear_combination -e.xz - e.zx - e.row₁₃ - e.col₁₃
  · apply product (mul_div_four hp) (mul_div_four hp)
    linear_combination -e.yz - e.zy - e.row₂₃ - e.col₂₃

/-- The quaternion around its first component fits. -/
theorem fits_byX (hP : 4 * (p * p) = 1 + m.xx - m.yy - m.zz) :
    Fits ⟨(m.zy - m.yz) / (4 * p), p, (m.xy + m.yx) / (4 * p), (m.xz + m.zx) / (4 * p)⟩ m := by
  have e := h.entries
  have product {a b A B C : ℝ} := @product_of_pivot p a b _ A B C hP hp
  -- ten products: with the pivot they hold by definition, the others follow from these
  constructor <;> dsimp only
  · apply product (mul_div_four hp) (mul_div_four hp)
    linear_combination e.row₂ + e.row₃ - e.col₁ - 2 * e.xx
  · exact hP
  · apply product (mul_div_four hp) (mul_div_four hp)
    linear_combination e.row₁ + e.row₂ - e.col₃ + 2 * e.zz
  · apply product (mul_div_four hp) (mul_div_four hp)
    linear_combination e.row₁ + e.row₃ - e.col₂ + 2 * e.yy
  · rw [mul_comm _ p]
    exact mul_div_four hp
  · apply product (mul_div_four hp) (mul_div_four hp)
    linear_combination -e.xz + e.zx + e.row₁₃ - e.col₁₃
  · apply product (mul_div_four hp) (mul_div_four hp)
    linear_combination -e.yx + e.xy + e.col₁₂ - e.row₁₂
  · exact mul_div_four hp
  · exact mul_div_four hp
  · apply product (mul_div_four hp) (mul_div_four hp)
    linear_combination -e.yz - e.zy + e.row₂₃ + e.col₂₃

/-- The quaternion around its second component fits. -/
theorem fits_byY (hP : 4 * (p * p) = 1 - m.xx + m.yy - m.zz) :
    Fits ⟨(m.xz - m.zx) / (4 * p), (m.xy + m.yx) / (4 * p), p, (m.yz + m.zy) / (4 * p)⟩ m := by
  have e := h.entries
  have product {a b A B C : ℝ} := @product_of_pivot p a b _ A B C hP hp
  -- the same ten products, from the second component
  constructor <;> dsimp only
  · apply product (mul_div_four hp) (mul_div_four hp)
    linear_combination e.row₁ + e.row₃ - e.col₂ - 2 * e.yy
  · apply product (mul_div_four hp) (mul_div_four hp)
    linear_combination e.row₁ + e.row₂ - e.col₃ + 2 * e.zz
  · exact hP
  · apply product (mul_div_four hp) (mul_div_four hp)
    linear_combination e.row₂ + e.row₃ - e.col₁ + 2 * e.xx
  · apply product (mul_div_four hp) (mul_div_four hp)
    linear_combination -e.zy + e.yz + e.col₂₃ - e.row₂₃
  · rw [mul_comm _ p]
    exact mul_div_four hp
  · apply product (mul_div_four hp) (mul_div_four hp)
    linear_combination -e.yx + e.xy + e.row₁₂ - e.col₁₂
  · rw [mul_comm _ p]
    exact mul_div_four hp
  · apply product (mul_div_four hp) (mul_div_four hp)
    linear_combination -e.zx - e.xz + e.col₁₃ + e.row₁₃
  · exact mul_div_four hp

/-- The quaternion around its third component fits. -/
theorem fits_byZ (hP : 4 * (p * p) = 1 - m.xx - m.yy + m.zz) :
    Fits ⟨(m.yx - m.xy) / (4 * p), (m.xz + m.zx) / (4 * p), (m.yz + m.zy) / (4 * p), p⟩ m := by
  have e := h.entries
  have product {a b A B C : ℝ} := @product_of_pivot p a b _ A B C hP hp
  -- the same ten products, from the third component
  constructor <;> dsimp only
  · apply product (mul_div_four hp) (mul_div_four hp)
    linear_combination e.row₁ + e.row₂ - e.col₃ - 2 * e.zz
  · apply product (mul_div_four hp) (mul_div_four hp)
    linear_combination e.row₁ + e.row₃ - e.col₂ + 2 * e.yy
  · apply product (mul_div_four hp) (mul_div_four hp)
    linear_combination e.row₂ + e.row₃ - e.col₁ + 2 * e.xx
  · exact hP
  · apply product (mul_div_four hp) (mul_div_four hp)
    linear_combination -e.zy + e.yz + e.row₂₃ - e.col₂₃
  · apply product (mul_div_four hp) (mul_div_four hp)
    linear_combination -e.xz + e.zx + e.col₁₃ - e.row₁₃
  · rw [mul_comm _ p]
    exact mul_div_four hp
  · apply product (mul_div_four hp) (mul_div_four hp)
    linear_combination -e.xy - e.yx + e.col₁₂ + e.row₁₂
  · rw [mul_comm _ p]
    exact mul_div_four hp
  · rw [mul_comm _ p]
    exact mul_div_four hp

end Branches

/-! ## The choice of a component

The trace decides first. Where it is not positive, the component of a largest diagonal entry is
taken. -/

/-- The components of a quaternion. -/
inductive Component where
  | w | x | y | z
  deriving DecidableEq, Repr

section Choice

variable {α : Type} [Scalar α]

/-- Four times the square of a component, as the diagonal of the matrix tells. -/
def radicand (m : Mat3 α) : Component → α
  | .w => lit 1 + m.xx + m.yy + m.zz
  | .x => lit 1 + m.xx - m.yy - m.zz
  | .y => lit 1 - m.xx + m.yy - m.zz
  | .z => lit 1 - m.xx - m.yy + m.zz

/-- The quaternion of a matrix with one component from the diagonal and the others by division. -/
def byComponent (m : Mat3 α) (i : Component) : Quaternion α :=
  let p := halfRoot (radicand m i)
  match i with
  | .w => ⟨p, (m.zy - m.yz) / (lit 4 * p), (m.xz - m.zx) / (lit 4 * p), (m.yx - m.xy) / (lit 4 * p)⟩
  | .x => ⟨(m.zy - m.yz) / (lit 4 * p), p, (m.xy + m.yx) / (lit 4 * p), (m.xz + m.zx) / (lit 4 * p)⟩
  | .y => ⟨(m.xz - m.zx) / (lit 4 * p), (m.xy + m.yx) / (lit 4 * p), p, (m.yz + m.zy) / (lit 4 * p)⟩
  | .z => ⟨(m.yx - m.xy) / (lit 4 * p), (m.xz + m.zx) / (lit 4 * p), (m.yz + m.zy) / (lit 4 * p), p⟩

/-- The choice of the component, with each way of it named by its component. -/
theorem ofMat3_eq_select (m : Mat3 α) : ofMat3 m =
    select (less (lit 0) m.trace) (byComponent m .w)
      (select (both (less m.yy m.xx) (less m.zz m.xx)) (byComponent m .x)
        (select (less m.zz m.yy) (byComponent m .y) (byComponent m .z))) := rfl

end Choice

/-- The component of a matrix that the others are divided by. -/
noncomputable def pivot (m : Mat3 ℝ) : Component :=
  if 0 < m.trace then .w
  else if m.yy < m.xx ∧ m.zz < m.xx then .x
  else if m.zz < m.yy then .y else .z

/-- On real numbers the quaternion of a matrix is found from the component that the trace and the
diagonal choose. -/
theorem ofMat3_eq (m : Mat3 ℝ) : ofMat3 m = byComponent m (pivot m) := by
  simp only [ofMat3_eq_select, select_eq_ite, both_ne_zero, less_ne_zero, lit_zero, pivot]
  split_ifs <;> rfl

/-- Whatever the matrix is, the choice leaves nothing less than one under the root. -/
theorem one_le_radicand (m : Mat3 ℝ) : 1 ≤ radicand m (pivot m) := by
  have htrace : m.trace = m.xx + m.yy + m.zz := by simp [Mat3.trace]
  unfold pivot
  split_ifs with hw hx hy <;> simp only [radicand, lit_one]
  · linarith
  · linarith [hx.1, hx.2]
  · have hxy : m.xx ≤ m.yy := le_of_not_largest hx hy.le
    linarith
  · have hyz : m.yy ≤ m.zz := not_lt.1 hy
    have hxz : m.xx ≤ m.zz := le_of_not_largest (mt And.symm hx) hyz
    linarith

/-- The divided component, without literals. -/
theorem halfRoot_eq (s : ℝ) : halfRoot s = Real.sqrt s / 2 := by
  simp only [halfRoot, sqrt_eq, lit_one, Nat.cast_ofNat]
  ring

/-- Four times the square of the divided component is its radicand. -/
theorem halfRoot_sq {s : ℝ} (hs : 1 ≤ s) : 4 * (halfRoot s * halfRoot s) = s := by
  rw [halfRoot_eq]
  linear_combination Real.mul_self_sqrt (zero_le_one.trans hs)

/-- The others are divided by two at least. -/
theorem two_le_four_mul_halfRoot {s : ℝ} (hs : 1 ≤ s) : 2 ≤ 4 * halfRoot s := by
  rw [halfRoot_eq]
  linarith [Real.one_le_sqrt.2 hs]

/-- Whichever component is divided by, the quaternion fits, if the radicand is at least one. -/
theorem fits_byComponent (h : m.IsRotation) {i : Component} (hi : 1 ≤ radicand m i) :
    Fits (byComponent m i) m := by
  have hne : halfRoot (radicand m i) ≠ 0 := by linarith [two_le_four_mul_halfRoot hi]
  have hsq := halfRoot_sq hi
  cases i <;> simp only [byComponent, radicand, lit_one, Nat.cast_ofNat] at hne hsq ⊢
  · exact fits_byW h hne hsq
  · exact fits_byX h hne hsq
  · exact fits_byY h hne hsq
  · exact fits_byZ h hne hsq

/-- **The quaternion of a rotation.** Each of its components fits, whichever way it was found. -/
theorem fits_ofMat3 (h : m.IsRotation) : Fits (ofMat3 m) m := by
  rw [ofMat3_eq]
  exact fits_byComponent h (one_le_radicand m)

/-- The quaternion of a rotation is a unit quaternion. -/
theorem isUnit_ofMat3 (h : m.IsRotation) : (ofMat3 m).IsUnit := (fits_ofMat3 h).isUnit

/-- The quaternion of a rotation has it for its matrix. -/
theorem toMat3_ofMat3 (h : m.IsRotation) : (ofMat3 m).toMat3 = m := (fits_ofMat3 h).toMat3_eq

/-! ## The quaternions of a matrix -/

/-- A unit quaternion fits its own matrix. -/
theorem IsUnit.fits (hq : q.IsUnit) : Fits q q.toMat3 := by
  have hunit : q.w * q.w + q.x * q.x + q.y * q.y + q.z * q.z = 1 := hq
  rw [toMat3_eq]
  constructor <;> dsimp only <;> linarith

/-- No quaternions fit a matrix but one and its negative. -/
theorem Fits.eq_or_eq_neg {p : Quaternion ℝ} (hp : Fits p m) (hq : Fits q m) :
    q = p ∨ q = -p := by
  have hunit : q.w * q.w + q.x * q.x + q.y * q.y + q.z * q.z = 1 := hq.isUnit
  -- `q` is the multiple of `p` by the scalar product of the two, which has square one
  let d := p.w * q.w + p.x * q.x + p.y * q.y + p.z * q.z
  have hw : q.w = d * p.w := by
    linear_combination -q.w * hunit + q.w / 4 * (hq.ww - hp.ww) + q.x / 4 * (hq.wx - hp.wx) +
      q.y / 4 * (hq.wy - hp.wy) + q.z / 4 * (hq.wz - hp.wz)
  have hx : q.x = d * p.x := by
    linear_combination -q.x * hunit + q.w / 4 * (hq.wx - hp.wx) + q.x / 4 * (hq.xx - hp.xx) +
      q.y / 4 * (hq.xy - hp.xy) + q.z / 4 * (hq.xz - hp.xz)
  have hy : q.y = d * p.y := by
    linear_combination -q.y * hunit + q.w / 4 * (hq.wy - hp.wy) + q.x / 4 * (hq.xy - hp.xy) +
      q.y / 4 * (hq.yy - hp.yy) + q.z / 4 * (hq.yz - hp.yz)
  have hz : q.z = d * p.z := by
    linear_combination -q.z * hunit + q.w / 4 * (hq.wz - hp.wz) + q.x / 4 * (hq.xz - hp.xz) +
      q.y / 4 * (hq.yz - hp.yz) + q.z / 4 * (hq.zz - hp.zz)
  have hd : d * d = 1 := by
    linear_combination -q.w * hw - q.x * hx - q.y * hy - q.z * hz + hunit
  rcases mul_self_eq_one_iff.1 hd with hone | hone
  · rw [hone, one_mul] at hw hx hy hz
    exact .inl (ext hw hx hy hz)
  · rw [hone, neg_one_mul] at hw hx hy hz
    exact .inr (ext hw hx hy hz)

/-- From the matrix of a unit quaternion it is found again, up to its sign. -/
theorem ofMat3_toMat3 (hq : q.IsUnit) : ofMat3 q.toMat3 = q ∨ ofMat3 q.toMat3 = -q :=
  hq.fits.eq_or_eq_neg (fits_ofMat3 hq.isRotation)

end Attitude.Quaternion
