import Attitude.Proofs.Formula.Shapes
import Attitude.Proofs.Session.Outcome
import Attitude.Proofs.Symbolic.Value
import Mathlib.Tactic.Ring

/-!
# One entry of a matrix

A position stands for an entry, told by its row and its column (`Position.Names`). Where a position
names an entry, the entry can be set, and `Sheet.Replaced` says what that does: the entry is the
given number whatever the symbols stand for, the other entries are what they were, and so are the
shape and the type of the scalars. Where it names none, setting fails (`Sheet.setEntry_cases`).
-/

namespace Attitude

/-! ## Positions -/

namespace Position

/-- The position is that of row `i` and column `j` in a matrix of `rows` rows and `cols` columns. A
linear index counts down the columns, one after the other; a negative index counts from the end. -/
inductive Names (rows cols i j : Nat) : Position → Prop
  | linear {k : Int} (hi : i < rows) (hj : j < cols)
      (hk : k = (i + rows * j : Nat) ∨ k + (rows * cols : Nat) = (i + rows * j : Nat)) :
      Names rows cols i j (.linear k)
  | entry {a b : Int} (hi : i < rows) (hj : j < cols) (ha : a = i ∨ a + rows = i)
      (hb : b = j ∨ b + cols = j) : Names rows cols i j (.entry a b)

/-- A named entry is in a row of the matrix. -/
theorem Names.row_lt {rows cols i j : Nat} {p : Position} (h : p.Names rows cols i j) :
    i < rows := by
  cases h <;> assumption

/-- A named entry is in a column of the matrix. -/
theorem Names.col_lt {rows cols i j : Nat} {p : Position} (h : p.Names rows cols i j) :
    j < cols := by
  cases h <;> assumption

/-- An index among `n` entries stands for one of them, from the start or from the end. -/
theorem index_eq_ok_iff {n m : Nat} {k : Int} :
    index n k = .ok m ↔ m < n ∧ (k = m ∨ k + n = m) := by
  have hindex : index n k = if 0 ≤ (if k < 0 then k + n else k) ∧ (if k < 0 then k + n else k) < n
      then .ok (if k < 0 then k + n else k).toNat else .error .outOfRange := rfl
  -- a negative index counts from the end, and both readings of it are linear in the number of
  -- entries
  rw [hindex]
  constructor
  · intro h
    by_cases hin : 0 ≤ (if k < 0 then k + n else k) ∧ (if k < 0 then k + n else k) < n
    · rw [if_pos hin] at h
      have hm := Except.ok.inj h
      omega
    · rw [if_neg hin] at h
      cases h
  · rintro ⟨hm, hk⟩
    have hin : 0 ≤ (if k < 0 then k + n else k) ∧ (if k < 0 then k + n else k) < n := by omega
    rw [if_pos hin]
    exact congrArg Except.ok (by omega)

/-- An index is refused for being out of range only. -/
theorem index_eq_error {n : Nat} {k : Int} {e : Fault} (h : index n k = .error e) :
    e = .outOfRange := by
  unfold index at h
  by_cases hin : 0 ≤ (if k < 0 then k + n else k) ∧ (if k < 0 then k + n else k) < n
  · simp only [if_pos hin] at h
    cases h
  · simp only [if_neg hin] at h
    cases h
    rfl

/-- The linear index of an entry is within the matrix, and row and column are read off it. -/
theorem linear_lt {rows cols i j : Nat} (hi : i < rows) (hj : j < cols) :
    i + rows * j < rows * cols := by
  calc i + rows * j < rows + rows * j := Nat.add_lt_add_right hi _
    _ = rows * (j + 1) := by ring
    _ ≤ rows * cols := Nat.mul_le_mul_left rows hj

/-- The entry that is found for a position is the one that it names. -/
theorem locate_eq_ok_iff {p : Position} {rows cols i j : Nat} :
    p.locate rows cols = .ok (i, j) ↔ p.Names rows cols i j := by
  cases p with
  | linear k =>
    constructor
    · intro h
      obtain ⟨m, hm, h⟩ := exists_of_bind_eq_ok h
      cases h
      obtain ⟨hlt, hk⟩ := index_eq_ok_iff.1 hm
      have hrows : 0 < rows := Nat.pos_of_ne_zero fun h0 => by simp [h0] at hlt
      -- columns are counted first, so the quotient by the rows is the column
      have hm : m % rows + rows * (m / rows) = m := Nat.mod_add_div m rows
      refine .linear (Nat.mod_lt m hrows) (Nat.div_lt_of_lt_mul hlt) ?_
      rw [hm]
      exact hk
    · rintro ⟨hi, hj, hk⟩
      have hm : index (rows * cols) k = .ok (i + rows * j) :=
        index_eq_ok_iff.2 ⟨linear_lt hi hj, hk⟩
      have hrow : (i + rows * j) % rows = i := by
        rw [Nat.add_mul_mod_self_left, Nat.mod_eq_of_lt hi]
      have hcol : (i + rows * j) / rows = j := by
        rw [Nat.add_mul_div_left _ _ (Nat.zero_lt_of_lt hi), Nat.div_eq_of_lt hi, Nat.zero_add]
      simp only [locate, hm, bind, Except.bind, pure, Except.pure, hrow, hcol]
  | entry a b =>
    constructor
    · intro h
      obtain ⟨i', hi, h⟩ := exists_of_bind_eq_ok h
      obtain ⟨j', hj, h⟩ := exists_of_bind_eq_ok h
      cases h
      obtain ⟨hilt, ha⟩ := index_eq_ok_iff.1 hi
      obtain ⟨hjlt, hb⟩ := index_eq_ok_iff.1 hj
      exact .entry hilt hjlt ha hb
    · rintro (_ | ⟨hi, hj, ha, hb⟩)
      have hrow : index rows a = .ok i := index_eq_ok_iff.2 ⟨hi, ha⟩
      have hcol : index cols b = .ok j := index_eq_ok_iff.2 ⟨hj, hb⟩
      simp only [locate, hrow, hcol, bind, Except.bind, pure, Except.pure]

/-- A position is refused for being out of range only. -/
theorem locate_eq_error {p : Position} {rows cols : Nat} {e : Fault}
    (h : p.locate rows cols = .error e) : e = .outOfRange := by
  cases p with
  | linear k =>
    simp only [locate, bind, Except.bind] at h
    split at h
    · next hk => cases h; exact index_eq_error hk
    · cases h
  | entry a b =>
    simp only [locate, bind, Except.bind] at h
    split at h
    · next ha => cases h; exact index_eq_error ha
    · split at h
      · next hb => cases h; exact index_eq_error hb
      · cases h

end Position

/-! ## Matrices with one entry set -/

namespace Grid

variable {α : Type} (m : Grid α) {i j i' j' : Nat} (a : α)

@[simp] theorem rows_set : (m.set i j a).rows = m.rows := rfl
@[simp] theorem cols_set : (m.set i j a).cols = m.cols := rfl

/-- The entry that was set is the new one. -/
theorem get?_set_self (hi : i < m.rows) (hj : j < m.cols) : (m.set i j a).get? i j = some a := by
  have hin : i < (m.set i j a).rows ∧ j < (m.set i j a).cols := ⟨hi, hj⟩
  rw [get?, dif_pos hin]
  refine congrArg some ?_
  exact (get_ofFn _ _ _ _ _).trans (if_pos ⟨rfl, rfl⟩)

/-- The other entries stay. -/
theorem get?_set_of_ne (h : (i', j') ≠ (i, j)) : (m.set i j a).get? i' j' = m.get? i' j' := by
  have hne : ¬ (i' = i ∧ j' = j) := fun ⟨hi, hj⟩ => h (Prod.ext hi hj)
  unfold get?
  by_cases hin : i' < m.rows ∧ j' < m.cols
  · rw [dif_pos hin, dif_pos (show i' < (m.set i j a).rows ∧ j' < (m.set i j a).cols from hin)]
    refine congrArg some ?_
    exact (get_ofFn _ _ _ _ _).trans (if_neg hne)
  · rw [dif_neg hin, dif_neg (show ¬ (i' < (m.set i j a).rows ∧ j' < (m.set i j a).cols) from hin)]

end Grid

namespace Datum

variable {α : Type}

/-- A transform keeps the type of the scalars. -/
theorem scalarType_apply [Scalar α] {f : Transform α} {d e : Datum α} (h : d.apply f = .ok e) :
    e.scalarType = d.scalarType := by
  cases d with
  | numeric m =>
    have h : (f id m).map numeric = .ok e := h
    cases hf : f id m with
    | error _ => rw [hf] at h; cases h
    | ok n => rw [hf] at h; cases h; rfl
  | symbolic s =>
    have h : (f .const s.slots).map (fun body => symbolic (.derived body s)) = .ok e := h
    cases hf : f .const s.slots with
    | error _ => rw [hf] at h; cases h
    | ok n => rw [hf] at h; cases h; rfl

/-- Setting an entry of data never fails, and it sets the entry of the value. -/
theorem exists_apply_replaced [Scalar α] (d : Datum α) (i j : Nat) (a : α) :
    ∃ e, d.apply (replaced i j a) = .ok e ∧ ∀ σ, e.value σ = (d.value σ).set i j a := by
  have hok : ∃ e, d.apply (replaced i j a) = .ok e := by
    cases d with
    | numeric m => exact ⟨_, rfl⟩
    | symbolic s => exact ⟨_, rfl⟩
  obtain ⟨e, he⟩ := hok
  refine ⟨e, he, fun σ => ?_⟩
  have hvalue := value_apply σ (natural_replaced i j a) d
  rw [he] at hvalue
  exact Except.ok.inj hvalue

theorem shape_value [Scalar α] (σ : String → α) (d : Datum α) : (d.value σ).shape = d.shape := by
  rw [Grid.shape, rows_value, cols_value, shape]

end Datum

namespace Sheet

variable {α : Type} [Ground α]

/-- The matrix `z` is `y` with the number `a` as the entry in row `i` and column `j`. -/
structure Replaced (y z : Sheet α) (i j : Nat) (a : α) : Prop where
  scalarType : z.datum.scalarType = y.datum.scalarType
  shape : z.datum.shape = y.datum.shape
  /-- The entry is the number, whatever the symbols stand for. -/
  entry (σ : String → α) : (z.datum.value σ).get? i j = some a
  others (σ : String → α) (i' j' : Nat) (h : (i', j') ≠ (i, j)) :
    (z.datum.value σ).get? i' j' = (y.datum.value σ).get? i' j'
  /-- The other zeros that were understood still are. -/
  understood (p : Nat × Nat) : p ∈ z.understood ↔ p ∈ y.understood ∧ p ≠ (i, j)

/-- Labels do not change what the entries are. -/
theorem Replaced.stamp {y z : Sheet α} {i j : Nat} {a : α} (h : y.Replaced z i j a) (l : Nat) :
    y.Replaced (z.stamp l) i j a where
  scalarType := by
    refine Eq.trans ?_ h.scalarType
    show (z.datum.stamp l).scalarType = z.datum.scalarType
    cases z.datum <;> rfl
  shape := (z.datum.shape_stamp l).trans h.shape
  entry σ := by
    show ((z.datum.stamp l).value σ).get? i j = some a
    rw [Datum.value_stamp, h.entry σ]
  others σ i' j' hne := by
    show ((z.datum.stamp l).value σ).get? i' j' = _
    rw [Datum.value_stamp, h.others σ i' j' hne]
  understood := h.understood

/-- **Setting an entry.** A position that names an entry has it replaced, and only that one; a
position that names none is refused. -/
theorem setEntry_cases (y : Sheet α) (p : Position) (a : α) :
    (∃ i j z, p.Names y.datum.rows y.datum.cols i j ∧ y.setEntry p a = .ok z ∧
        y.Replaced z i j a) ∨
      (∀ i j, ¬ p.Names y.datum.rows y.datum.cols i j) ∧
        y.setEntry p a = .error .outOfRange := by
  -- the position is located before anything is written
  cases hp : p.locate y.datum.rows y.datum.cols with
  | error e =>
    refine .inr ⟨fun i j hn => ?_, ?_⟩
    · rw [Position.locate_eq_ok_iff.2 hn] at hp
      cases hp
    · obtain rfl := Position.locate_eq_error hp
      simp only [setEntry, hp, bind, Except.bind]
  | ok q =>
    obtain ⟨i, j⟩ := q
    have hn := Position.locate_eq_ok_iff.1 hp
    -- what is written is a transform of the data, and its value is known for every assignment
    obtain ⟨d, hd, hvalue⟩ := y.datum.exists_apply_replaced i j a
    refine .inl ⟨i, j, ⟨d, y.understood.filter (· ≠ (i, j))⟩, hn, ?_, ?_⟩
    · simp only [setEntry, hp, hd, bind, Except.bind, pure, Except.pure]
    · refine ⟨Datum.scalarType_apply hd, ?_, fun σ => ?_, fun σ i' j' hne => ?_, fun p => ?_⟩
      · calc d.shape = (d.value fun _ => a).shape := (d.shape_value _).symm
          _ = (y.datum.value fun _ => a).shape := by rw [hvalue]; rfl
          _ = y.datum.shape := y.datum.shape_value _
      · rw [hvalue σ]
        refine Grid.get?_set_self _ _ ?_ ?_
        · rw [Datum.rows_value]
          exact hn.row_lt
        · rw [Datum.cols_value]
          exact hn.col_lt
      · rw [hvalue σ, Grid.get?_set_of_ne _ _ hne]
      · simp only [List.mem_filter, decide_eq_true_eq]

/-- What is set is an entry that the position names. -/
theorem exists_replaced_of_setEntry {y z : Sheet α} {p : Position} {a : α}
    (h : y.setEntry p a = .ok z) :
    ∃ i j, p.Names y.datum.rows y.datum.cols i j ∧ y.Replaced z i j a := by
  obtain ⟨i, j, z', hn, hz', hreplaced⟩ | ⟨-, he⟩ := y.setEntry_cases p a
  · obtain rfl : z' = z := Except.ok.inj (hz'.symm.trans h)
    exact ⟨i, j, hn, hreplaced⟩
  · rw [he] at h
    cases h

end Sheet

end Attitude
