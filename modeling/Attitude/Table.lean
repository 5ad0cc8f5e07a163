/-!
# Tables

A table holds at most one value for each key that was put into it: a later value for a key replaces
an earlier one.
-/

namespace Attitude

/-- A table from keys to values, the latest entry first. -/
structure Table (κ υ : Type) where
  entries : List (κ × υ) := []
  deriving Repr

namespace Table

variable {κ υ : Type} [DecidableEq κ]

/-- The table without entries. -/
def empty : Table κ υ := ⟨[]⟩

/-- The value of a key. -/
def get? (t : Table κ υ) (k : κ) : Option υ := t.entries.lookup k

/-- The table in which the key has the given value. -/
def insert (t : Table κ υ) (k : κ) (v : υ) : Table κ υ := ⟨(k, v) :: t.entries⟩

/-- The table of some entries, of which the first one with a key counts. -/
def ofList (xs : List (κ × υ)) : Table κ υ := ⟨xs⟩

@[simp]
theorem get?_empty (k : κ) : (empty : Table κ υ).get? k = none := rfl

/-- The value that was inserted is found. -/
@[simp]
theorem get?_insert_self (t : Table κ υ) (k : κ) (v : υ) : (t.insert k v).get? k = some v := by
  simp [get?, insert]

theorem get?_insert_of_ne (t : Table κ υ) {k k' : κ} (v : υ) (h : k' ≠ k) :
    (t.insert k v).get? k' = t.get? k' := by
  show ((k, v) :: t.entries).lookup k' = t.entries.lookup k'
  rw [List.lookup_cons, beq_eq_false_iff_ne.2 h]

theorem get?_insert (t : Table κ υ) (k k' : κ) (v : υ) :
    (t.insert k v).get? k' = if k' = k then some v else t.get? k' := by
  by_cases h : k' = k
  · subst h
    simp
  · simp [h, get?_insert_of_ne t v h]

end Table

end Attitude
