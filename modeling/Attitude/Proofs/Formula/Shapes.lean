import Attitude.Conversion
import Attitude.Proofs.Grid.Shapes
import Mathlib.Data.Fintype.Basic
import Mathlib.Tactic.FinCases

/-!
# The shapes that formulas take and give

A formula on an encoding answers on every matrix of the shape of that encoding, whatever its
entries, and its result has a fixed shape as well. `Formula.signature?` lists the two shapes, and
`Formula.apply_of_signature` says that the list is right.

Whether data consists of numbers or of symbols makes no difference to shapes: a transform is run on
a matrix of the shape of the data in both cases (`Datum.apply_of_takes`).
-/

namespace Attitude

variable {α β γ δ : Type}

/-! ## Readers of fixed shapes -/

namespace Grid

/-- The shape is the number of rows and that of columns. -/
theorem shape_eq_iff {m : Grid β} {r c : Nat} : m.shape = [r, c] ↔ m.rows = r ∧ m.cols = c := by
  simp [shape]

theorem toVec3?_of_shape {m : Grid β} (h : m.shape = [3, 1]) : ∃ v, m.toVec3? = some v := by
  obtain ⟨r, c, v⟩ := m
  obtain ⟨rfl, rfl⟩ := shape_eq_iff.1 h
  exact ⟨_, rfl⟩

theorem toQuaternion?_of_shape {m : Grid β} (h : m.shape = [4, 1]) :
    ∃ q, m.toQuaternion? = some q := by
  obtain ⟨r, c, v⟩ := m
  obtain ⟨rfl, rfl⟩ := shape_eq_iff.1 h
  exact ⟨_, rfl⟩

/-- A column of three is a triple of angles. -/
theorem toEulerAngles?_of_shape {m : Grid β} (h : m.shape = [3, 1]) :
    ∃ e, m.toEulerAngles? = some e := by
  obtain ⟨r, c, v⟩ := m
  obtain ⟨rfl, rfl⟩ := shape_eq_iff.1 h
  exact ⟨_, rfl⟩

/-- Nine entries in three rows are a matrix. -/
theorem toMat3?_of_shape {m : Grid β} (h : m.shape = [3, 3]) : ∃ n, m.toMat3? = some n := by
  obtain ⟨r, c, v⟩ := m
  obtain ⟨rfl, rfl⟩ := shape_eq_iff.1 h
  exact ⟨_, rfl⟩

/-- A column of three is the column of a vector. -/
theorem exists_vec3 {m : Grid β} (hm : m.shape = [3, 1]) : ∃ v : Vec3 β, m = v.toGrid := by
  obtain ⟨r, c, w⟩ := m
  obtain ⟨rfl, rfl⟩ := shape_eq_iff.1 hm
  refine ⟨⟨w[0][0], w[0][1], w[0][2]⟩, ext_get rfl rfl fun i j => ?_⟩
  fin_cases i <;> fin_cases j <;> rfl

/-- A column of four is the column of a quaternion. -/
theorem exists_quaternion {m : Grid β} (hm : m.shape = [4, 1]) :
    ∃ q : Quaternion β, m = q.toGrid := by
  obtain ⟨r, c, w⟩ := m
  obtain ⟨rfl, rfl⟩ := shape_eq_iff.1 hm
  refine ⟨⟨w[0][0], w[0][1], w[0][2], w[0][3]⟩, ext_get rfl rfl fun i j => ?_⟩
  fin_cases i <;> fin_cases j <;> rfl

/-- Nine entries in three rows are the grid of a matrix. -/
theorem exists_mat3 {m : Grid β} (hm : m.shape = [3, 3]) : ∃ n : Mat3 β, m = n.toGrid := by
  obtain ⟨r, c, w⟩ := m
  obtain ⟨rfl, rfl⟩ := shape_eq_iff.1 hm
  refine ⟨⟨w[0][0], w[1][0], w[2][0], w[0][1], w[1][1], w[2][1], w[0][2], w[1][2], w[2][2]⟩,
    ext_get rfl rfl fun i j => ?_⟩
  fin_cases i <;> fin_cases j <;> rfl

/-- Matrices of three rows and columns have a product. -/
theorem mul?_of_shape [RingOps β] {a b : Grid β} (ha : a.shape = [3, 3]) (hb : b.shape = [3, 3]) :
    ∃ m, a.mul? b = some m ∧ m.shape = [3, 3] := by
  obtain ⟨har, hac⟩ := shape_eq_iff.1 ha
  obtain ⟨hbr, hbc⟩ := shape_eq_iff.1 hb
  have hfit : a.cols = b.rows := hac.trans hbr.symm
  have hsingle : a.toSingle? = none := toSingle?_eq_none (by omega)
  have hsingle' : b.toSingle? = none := toSingle?_eq_none (by omega)
  refine ⟨a.mul b hfit, ?_, shape_eq_iff.2 ⟨har, hbc⟩⟩
  simp only [mul?, hsingle, hsingle', dif_pos hfit]

end Grid

/-! ## Formulas -/

namespace Formula

/-- A formula of a fixed shape answers on matrices of this shape. -/
theorem shaped_of_shape {read : Grid β → Option δ} {f : δ → Grid γ} {a b : List Nat}
    (hread : ∀ {m : Grid β}, m.shape = a → ∃ x, read m = some x) (hf : ∀ x, (f x).shape = b)
    {m : Grid β} (hm : m.shape = a) : ∃ n, shaped read f m = .ok n ∧ n.shape = b := by
  obtain ⟨x, hx⟩ := hread hm
  refine ⟨f x, ?_, hf x⟩
  simp only [shaped, hx]

/-- A formula of two matrices of a fixed shape answers on matrices of this shape. -/
theorem shaped₂_of_shape {read : Grid β → Option δ} {f : δ → δ → Grid γ} {a b : List Nat}
    (hread : ∀ {m : Grid β}, m.shape = a → ∃ x, read m = some x) (hf : ∀ x y, (f x y).shape = b)
    {m n : Grid β} (hm : m.shape = a) (hn : n.shape = a) :
    ∃ k, shaped₂ read f m n = .ok k ∧ k.shape = b := by
  obtain ⟨x, hx⟩ := hread hm
  obtain ⟨y, hy⟩ := hread hn
  refine ⟨f x y, ?_, hf x y⟩
  simp only [shaped₂, hx, hy]

/-- The shape that a formula on one encoding takes and the shape that it gives. -/
def signature? : Formula → Option (List Nat × List Nat)
  | quaternionConj => some ([4, 1], [4, 1])
  | quaternionToMatrix => some ([4, 1], [3, 3])
  | quaternionToRotationVector | rodriguesOfQuaternion => some ([4, 1], [3, 1])
  | quaternionOfMatrix => some ([3, 3], [4, 1])
  | rodriguesOfMatrix | eulerOfMatrix | rotationVectorOfMatrix => some ([3, 3], [3, 1])
  | rodriguesToMatrix | eulerToMatrix | rotationVectorToMatrix => some ([3, 1], [3, 3])
  | quaternionOfRotationVector | rodriguesToQuaternion | eulerToQuaternion =>
    some ([3, 1], [4, 1])
  | rodriguesShadow | rodriguesShadowIfOutside | rodriguesToRotationVector
  | rodriguesOfRotationVector => some ([3, 1], [3, 1])
  | quaternionMul | rodriguesMul | copy | itself | sinc | cosc | halfCosecant | hat | vee => none

variable [Scalar β] {a b : List Nat}

/-- **Shapes of formulas.** A formula answers on every matrix of the shape that it takes, with one
of the shape that it gives. -/
theorem apply_of_signature {f : Formula} (hf : f.signature? = some (a, b)) (eps : β) {m : Grid β}
    (hm : m.shape = a) : ∃ n, f.apply eps [m] = .ok n ∧ n.shape = b := by
  cases f
  case quaternionMul | rodriguesMul | copy | itself | sinc | cosc | halfCosecant | hat | vee =>
    cases hf
  case quaternionConj | quaternionToMatrix | quaternionToRotationVector | rodriguesOfQuaternion =>
    cases hf
    exact shaped_of_shape Grid.toQuaternion?_of_shape (fun _ => by rfl) hm
  case quaternionOfMatrix | rodriguesOfMatrix | eulerOfMatrix | rotationVectorOfMatrix =>
    cases hf
    exact shaped_of_shape Grid.toMat3?_of_shape (fun _ => by rfl) hm
  case eulerToMatrix | eulerToQuaternion =>
    cases hf
    exact shaped_of_shape Grid.toEulerAngles?_of_shape (fun _ => by rfl) hm
  all_goals
    cases hf
    exact shaped_of_shape Grid.toVec3?_of_shape (fun _ => by rfl) hm

theorem apply_quaternionMul (eps : β) {m n : Grid β} (hm : m.shape = [4, 1])
    (hn : n.shape = [4, 1]) : ∃ k, quaternionMul.apply eps [m, n] = .ok k ∧ k.shape = [4, 1] :=
  shaped₂_of_shape Grid.toQuaternion?_of_shape (fun _ _ => by rfl) hm hn

theorem apply_rodriguesMul (eps : β) {m n : Grid β} (hm : m.shape = [3, 1])
    (hn : n.shape = [3, 1]) : ∃ k, rodriguesMul.apply eps [m, n] = .ok k ∧ k.shape = [3, 1] :=
  shaped₂_of_shape Grid.toVec3?_of_shape (fun _ _ => by rfl) hm hn

end Formula

/-! ## Transforms of data -/

/-- The transform answers on every matrix of shape `a`, with one of shape `b`. -/
def Transform.Takes (f : Transform α) (a b : List Nat) : Prop :=
  ∀ {β : Type} [Scalar β] (constant : α → β) (m : Grid β), m.shape = a →
    ∃ n, f constant m = .ok n ∧ n.shape = b

/-- The transform answers on any two matrices of shape `a`, with one of shape `b`. -/
def Transform₂.Takes (f : Transform₂ α) (a b : List Nat) : Prop :=
  ∀ {β : Type} [Scalar β] (constant : α → β) (m n : Grid β), m.shape = a → n.shape = a →
    ∃ k, f constant m n = .ok k ∧ k.shape = b

/-- A formula as a transform, with the shapes of its signature. -/
theorem Formula.transform_takes {f : Formula} {a b : List Nat} (hf : f.signature? = some (a, b))
    (eps : α) : Transform.Takes (f.transform eps) a b :=
  fun constant _ hm => apply_of_signature hf (constant eps) hm

theorem multiplied_takes : Transform₂.Takes (@multiplied α) [3, 3] [3, 3] := by
  intro β _ constant m n hm hn
  obtain ⟨k, hk, hshape⟩ := Grid.mul?_of_shape hm hn
  refine ⟨k, ?_, hshape⟩
  simp only [multiplied, hk]

theorem transposed_takes (r c : Nat) : Transform.Takes (@transposed α) [r, c] [c, r] := by
  intro β _ constant m hm
  obtain ⟨hr, hc⟩ := Grid.shape_eq_iff.1 hm
  exact ⟨m.transpose, rfl, Grid.shape_eq_iff.2 ⟨hc, hr⟩⟩

theorem negated_takes (a : List Nat) : Transform.Takes (@negated α) a a :=
  fun _ m hm => ⟨m.neg, rfl, hm⟩

theorem replaced_takes (i j : Nat) (x : α) (a : List Nat) :
    Transform.Takes (replaced i j x) a a :=
  fun constant m hm => ⟨m.set i j (constant x), rfl, hm⟩

namespace Datum

/-- Data of numbers has their shape, in either scalar type. -/
theorem shape_ofNumbers (t : ScalarType) (m : Grid α) : (ofNumbers t m).shape = m.shape := by
  cases t <;> rfl

/-- Numbers as constants have their shape. -/
theorem shape_toSymbolic (d : Datum α) : [d.toSymbolic.rows, d.toSymbolic.cols] = d.shape := by
  cases d <;> rfl

theorem shape_stamp [Ground α] (label : Nat) (d : Datum α) : (d.stamp label).shape = d.shape := by
  cases d with
  | numeric m => rfl
  | symbolic s => cases s <;> rfl

variable [Scalar α] {a b : List Nat} {d e : Datum α}

/-- What a transform says of matrices it says of data. -/
theorem apply_of_takes {f : Transform α} (hf : f.Takes a b) (hd : d.shape = a) :
    ∃ d', d.apply f = .ok d' ∧ d'.shape = b := by
  cases d with
  | numeric m =>
    obtain ⟨n, hn, hshape⟩ := hf id m hd
    refine ⟨numeric n, ?_, hshape⟩
    simp only [apply, hn, Except.map]
  | symbolic s =>
    obtain ⟨body, hbody, hshape⟩ := hf .const s.slots hd
    refine ⟨symbolic (.derived body s), ?_, hshape⟩
    simp only [apply, hbody, Except.map]

/-- A transform of two symbolic matrices is run on variables in the shape of both. -/
theorem apply₂_symbolic {f : Transform₂ α} (hf : f.Takes a b) (s t : Symbolic α)
    (hs : [s.rows, s.cols] = a) (ht : [t.rows, t.cols] = a) :
    ∃ d', ((f .const (Grid.ofFn s.rows s.cols fun i j => .var (.inl (i.val, j.val)))
      (Grid.ofFn t.rows t.cols fun i j => .var (.inr (i.val, j.val)))).map
        fun body => symbolic (.derived₂ body s t)) = .ok d' ∧ d'.shape = b := by
  let left : Grid (Expr Slot α) := Grid.ofFn s.rows s.cols fun i j => .var (.inl (i.val, j.val))
  let right : Grid (Expr Slot α) := Grid.ofFn t.rows t.cols fun i j => .var (.inr (i.val, j.val))
  obtain ⟨body, hbody, hshape⟩ := hf .const left right hs ht
  exact ⟨symbolic (.derived₂ body s t), congrArg (Except.map _) hbody, hshape⟩

/-- A transform of two matrices answers on data of the right shape. -/
theorem apply₂_of_takes {f : Transform₂ α} (hf : f.Takes a b) (hd : d.shape = a)
    (he : e.shape = a) : ∃ d', apply₂ f d e = .ok d' ∧ d'.shape = b := by
  cases d with
  | numeric m =>
    cases e with
    | numeric n =>
      obtain ⟨k, hk, hshape⟩ := hf id m n hd he
      exact ⟨numeric k, congrArg (Except.map numeric) hk, hshape⟩
    | symbolic t => exact apply₂_symbolic hf (.ofNumbers m) t hd he
  | symbolic s => exact apply₂_symbolic hf s e.toSymbolic hd (e.shape_toSymbolic.trans he)

/-! ### What a cast reads

A stamp remembers what a stored matrix reads as, and a cast to numbers asks the stamp. So the shape
of the result is the one of the data as long as stamps are truthful about shapes. -/

section Ground

variable [Ground β] {d d' e : Datum β}

/-- What the data reads as has the shape of the data. -/
def Legible : Datum β → Prop
  | numeric _ => True
  | symbolic s => s.reading.shape = [s.rows, s.cols]

/-- Numbers and constants read as data of their shape. -/
theorem legible_ofNumbers (t : ScalarType) (m : Grid β) : (ofNumbers t m).Legible := by
  cases t with
  | numeric => trivial
  | symbolic => rfl

/-- Data that is legible in each case is legible. -/
theorem legible_of_map {x : Except Fault γ} {g : γ → Datum β} (h : x.map g = .ok d')
    (hg : ∀ c, (g c).Legible) : d'.Legible := by
  cases x with
  | error e => cases h
  | ok c =>
    cases h
    exact hg c

/-- Transformed data is legible: it has new expressions, one for each entry. -/
theorem legible_of_apply {f : Transform β} (h : d.apply f = .ok d') : d'.Legible := by
  cases d with
  | numeric m => exact legible_of_map h fun _ => trivial
  | symbolic s => exact legible_of_map h fun _ => rfl

/-- The same for a transform of two matrices. -/
theorem legible_of_apply₂ {f : Transform₂ β} (h : apply₂ f d e = .ok d') : d'.Legible := by
  cases d with
  | numeric m =>
    cases e with
    | numeric n => exact legible_of_map h fun _ => trivial
    | symbolic t => exact legible_of_map h fun _ => rfl
  | symbolic s => exact legible_of_map h fun _ => rfl

/-- A stamp is made from what it stands on. -/
theorem Legible.stamp (h : d.Legible) (label : Nat) : (d.stamp label).Legible := by
  cases d with
  | numeric m => trivial
  | symbolic s => cases s <;> exact h

theorem Legible.toSymbolic (h : d.Legible) : (symbolic d.toSymbolic).Legible := by
  cases d with
  | numeric m => rfl
  | symbolic s => exact h

/-- Legible data has the shape of its numbers, if it has any. -/
theorem Legible.shape_of_numbers? (h : d.Legible) {m : Grid β} (hm : d.numbers? = some m) :
    m.shape = d.shape := by
  cases d with
  | numeric n => cases hm; rfl
  | symbolic s =>
    simp only [numbers?, Symbolic.numbers?] at hm
    split at hm
    · cases hm
      exact h
    · cases hm

/-- Data of a shape, which reads as data of that shape. -/
structure Fits (a : List Nat) (d : Datum β) : Prop where
  shape : d.shape = a
  legible : d.Legible

theorem fits_ofNumbers (t : ScalarType) (m : Grid β) : (ofNumbers t m).Fits m.shape :=
  ⟨shape_ofNumbers t m, legible_ofNumbers t m⟩

/-- Labels do not change what data fits. -/
theorem Fits.stamp {a : List Nat} (h : d.Fits a) (label : Nat) : (d.stamp label).Fits a :=
  ⟨(d.shape_stamp label).trans h.shape, h.legible.stamp label⟩

/-- A cast keeps the shape. -/
theorem Legible.cast {t : ScalarType} (h : d.Legible) (hd : d.cast t = .ok d') :
    d'.Fits d.shape := by
  cases t with
  | symbolic =>
    cases hd
    exact ⟨d.shape_toSymbolic, h.toSymbolic⟩
  | numeric =>
    simp only [Datum.cast, numbers] at hd
    cases hm : d.numbers? with
    | none => rw [hm] at hd; cases hd
    | some m =>
      rw [hm] at hd
      cases hd
      exact ⟨h.shape_of_numbers? hm, trivial⟩

end Ground

end Datum

end Attitude
