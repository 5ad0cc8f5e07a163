import Attitude.Grid
import Mathlib.Data.Nat.Init

/-!
# Shapes of matrices

A reader of a fixed shape looks at the numbers of rows and columns only. So it finds something in a
matrix exactly if it finds something in the matrix with a function applied to every entry, and a
matrix of its shape is the matrix of what it finds.
-/

namespace Attitude

variable {β γ : Type}

/-- Applies a function to every angle. -/
def EulerAngles.map (f : β → γ) (e : EulerAngles β) : EulerAngles γ :=
  ⟨f e.roll, f e.pitch, f e.yaw⟩

@[simp]
theorem Vec3.map_toGrid (f : β → γ) (v : Vec3 β) : v.toGrid.map f = (v.map f).toGrid := rfl

@[simp]
theorem Quaternion.map_toGrid (f : β → γ) (q : Quaternion β) :
    q.toGrid.map f = (q.map f).toGrid := rfl

@[simp]
theorem EulerAngles.map_toGrid (f : β → γ) (e : EulerAngles β) :
    e.toGrid.map f = (e.map f).toGrid := rfl

@[simp]
theorem Mat3.map_toGrid (f : β → γ) (m : Mat3 β) : m.toGrid.map f = (m.map f).toGrid := rfl

theorem Mat3.toGrid_injective {m n : Mat3 β} (h : m.toGrid = n.toGrid) : m = n :=
  Option.some.inj (congrArg Grid.toMat3? h)

namespace Grid

/-! ## Functions applied to every entry -/

@[simp] theorem rows_map (f : β → γ) (m : Grid β) : (m.map f).rows = m.rows := rfl
@[simp] theorem cols_map (f : β → γ) (m : Grid β) : (m.map f).cols = m.cols := rfl

@[simp]
theorem get_map (f : β → γ) (m : Grid β) (i : Fin m.rows) (j : Fin m.cols) :
    (m.map f).get i j = f (m.get i j) :=
  get_ofFn m.rows m.cols (fun i j => f (m.get i j)) i j

@[simp]
theorem map_ofFn (f : β → γ) (r c : Nat) (g : Fin r → Fin c → β) :
    (ofFn r c g).map f = ofFn r c fun i j => f (g i j) := by
  simp only [map, rows_ofFn, cols_ofFn, get_ofFn]

theorem map_map {δ : Type} (f : γ → δ) (g : β → γ) (m : Grid β) :
    (m.map g).map f = m.map fun x => f (g x) :=
  map_ofFn f m.rows m.cols fun i j => g (m.get i j)

theorem ofFn_get (m : Grid β) : ofFn m.rows m.cols m.get = m :=
  ext_get rfl rfl fun i j => get_ofFn m.rows m.cols m.get i j

theorem map_id (m : Grid β) : m.map id = m := ofFn_get m

@[simp]
theorem map_single (f : β → γ) (a : β) : (single a).map f = single (f a) := map_ofFn f 1 1 _

@[simp]
theorem map_transpose (f : β → γ) (m : Grid β) : m.transpose.map f = (m.map f).transpose := by
  simp only [transpose, map_ofFn, get_map, rows_map, cols_map]

theorem toLists_map (f : β → γ) (m : Grid β) :
    (m.map f).toLists = m.toLists.map (List.map f) := by
  simp [toLists, Function.comp_def]

theorem toList_map (f : β → γ) (m : Grid β) : (m.map f).toList = m.toList.map f := by
  simp only [toList, toLists_map, List.map_flatten]

/-- The entries in one list are those at all positions. -/
theorem mem_toList {m : Grid β} {x : β} : x ∈ m.toList ↔ ∃ i j, m.get i j = x := by
  constructor
  · intro h
    obtain ⟨row, hrow, hx⟩ := List.mem_flatten.1 h
    obtain ⟨i, -, rfl⟩ := List.mem_map.1 hrow
    obtain ⟨j, -, rfl⟩ := List.mem_map.1 hx
    exact ⟨i, j, rfl⟩
  · rintro ⟨i, j, rfl⟩
    refine List.mem_flatten.2 ⟨_, List.mem_map.2 ⟨i, List.mem_finRange i, rfl⟩, ?_⟩
    exact List.mem_map.2 ⟨j, List.mem_finRange j, rfl⟩

theorem all_iff {p : β → Bool} {m : Grid β} : m.all p = true ↔ ∀ i j, p (m.get i j) = true := by
  rw [all, List.all_eq_true]
  constructor
  · exact fun h i j => h _ (mem_toList.2 ⟨i, j, rfl⟩)
  · intro h x hx
    obtain ⟨i, j, rfl⟩ := mem_toList.1 hx
    exact h i j

/-! ## Fixed shapes -/

/-- Only a grid of one entry is a single number. -/
theorem toSingle?_eq_none {m : Grid β} (h : ¬ (m.rows = 1 ∧ m.cols = 1)) : m.toSingle? = none := by
  unfold toSingle?
  split
  · exact absurd ⟨rfl, rfl⟩ h
  · rfl

theorem toVec3?_eq_none {m : Grid β} (h : ¬ (m.rows = 3 ∧ m.cols = 1)) : m.toVec3? = none := by
  unfold toVec3?
  split
  · exact absurd ⟨rfl, rfl⟩ h
  · rfl

/-- Only a column of four is a quaternion. -/
theorem toQuaternion?_eq_none {m : Grid β} (h : ¬ (m.rows = 4 ∧ m.cols = 1)) :
    m.toQuaternion? = none := by
  unfold toQuaternion?
  split
  · exact absurd ⟨rfl, rfl⟩ h
  · rfl

/-- Only a column of three is a triple of angles. -/
theorem toEulerAngles?_eq_none {m : Grid β} (h : ¬ (m.rows = 3 ∧ m.cols = 1)) :
    m.toEulerAngles? = none := by
  unfold toEulerAngles?
  split
  · exact absurd ⟨rfl, rfl⟩ h
  · rfl

/-- Only nine entries in three rows are a matrix. -/
theorem toMat3?_eq_none {m : Grid β} (h : ¬ (m.rows = 3 ∧ m.cols = 3)) : m.toMat3? = none := by
  unfold toMat3?
  split
  · exact absurd ⟨rfl, rfl⟩ h
  · rfl

/-- Reading a single number, before a map and after. -/
theorem toSingle?_map (f : β → γ) (m : Grid β) : (m.map f).toSingle? = m.toSingle?.map f := by
  by_cases h : m.rows = 1 ∧ m.cols = 1
  · obtain ⟨r, c, v⟩ := m
    obtain ⟨rfl, rfl⟩ : r = 1 ∧ c = 1 := h
    rfl
  · rw [toSingle?_eq_none h, toSingle?_eq_none (m := m.map f) h]
    rfl

/-- Reading a vector, before a map and after. -/
theorem toVec3?_map (f : β → γ) (m : Grid β) : (m.map f).toVec3? = m.toVec3?.map (Vec3.map f) := by
  by_cases h : m.rows = 3 ∧ m.cols = 1
  · obtain ⟨r, c, v⟩ := m
    obtain ⟨rfl, rfl⟩ : r = 3 ∧ c = 1 := h
    rfl
  · rw [toVec3?_eq_none h, toVec3?_eq_none (m := m.map f) h]
    rfl

/-- Reading a quaternion, before a map and after. -/
theorem toQuaternion?_map (f : β → γ) (m : Grid β) :
    (m.map f).toQuaternion? = m.toQuaternion?.map (Quaternion.map f) := by
  by_cases h : m.rows = 4 ∧ m.cols = 1
  · obtain ⟨r, c, v⟩ := m
    obtain ⟨rfl, rfl⟩ : r = 4 ∧ c = 1 := h
    rfl
  · rw [toQuaternion?_eq_none h, toQuaternion?_eq_none (m := m.map f) h]
    rfl

/-- Reading angles, before a map and after. -/
theorem toEulerAngles?_map (f : β → γ) (m : Grid β) :
    (m.map f).toEulerAngles? = m.toEulerAngles?.map (EulerAngles.map f) := by
  by_cases h : m.rows = 3 ∧ m.cols = 1
  · obtain ⟨r, c, v⟩ := m
    obtain ⟨rfl, rfl⟩ : r = 3 ∧ c = 1 := h
    rfl
  · rw [toEulerAngles?_eq_none h, toEulerAngles?_eq_none (m := m.map f) h]
    rfl

/-- Reading a matrix, before a map and after. -/
theorem toMat3?_map (f : β → γ) (m : Grid β) : (m.map f).toMat3? = m.toMat3?.map (Mat3.map f) := by
  by_cases h : m.rows = 3 ∧ m.cols = 3
  · obtain ⟨r, c, v⟩ := m
    obtain ⟨rfl, rfl⟩ : r = 3 ∧ c = 3 := h
    rfl
  · rw [toMat3?_eq_none h, toMat3?_eq_none (m := m.map f) h]
    rfl

end Grid

end Attitude
