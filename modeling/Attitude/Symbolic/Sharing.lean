import Attitude.Symbolic.Basic
import Attitude.Symbolic.Written
import Attitude.Table

/-!
# Values that are computed once

A matrix that was stored may occur many times within another one, and twice as often with every
product that has it on both sides. `Symbolic.evalOnce` therefore keeps the values of stored matrices
in a table under their labels. `evalOnce_eq` says that its answer is the one of `Symbolic.eval`, as
long as a label stands for one value.
-/

namespace Attitude

namespace Symbolic

variable {α β : Type}

section Eval

variable [Scalar β] (constant : α → β) (symbols : String → β)

/-- The value of a symbolic matrix, with a table of the values of stored matrices. -/
def evalOnce : Symbolic α → StateM (Table Nat (Grid β)) (Grid β)
  | entries m => pure (m.map (Expr.eval constant symbols))
  | derived body source => do
    let known ← evalOnce source
    pure (body.map (Expr.eval constant (lookup known)))
  | derived₂ body left right => do
    let knownLeft ← evalOnce left
    let knownRight ← evalOnce right
    pure (body.map (Expr.eval constant (Sum.elim (lookup knownLeft) (lookup knownRight))))
  | stored stamp s => fun table =>
    match table.get? stamp.label with
    | some m => (m, table)
    | none =>
      let (m, table) := evalOnce s table
      (m, table.insert stamp.label m)

/-- Every stored matrix within a matrix has the value that `f` gives to its label. -/
def LabelledBy (f : Nat → Grid β) : Symbolic α → Prop
  | entries _ => True
  | derived _ source => LabelledBy f source
  | derived₂ _ left right => LabelledBy f left ∧ LabelledBy f right
  | stored stamp s => f stamp.label = s.eval constant symbols ∧ LabelledBy f s

/-- The value is the one of `eval`, and the table goes on to hold values by label. -/
theorem evalOnce_eq {f : Nat → Grid β} (s : Symbolic α) (hs : s.LabelledBy constant symbols f)
    (t : Table Nat (Grid β)) (ht : ∀ l m, t.get? l = some m → m = f l) :
    (s.evalOnce constant symbols t).1 = s.eval constant symbols ∧
      ∀ l m, (s.evalOnce constant symbols t).2.get? l = some m → m = f l := by
  induction s generalizing t with
  | entries m => exact ⟨rfl, ht⟩
  | derived body source ih =>
    obtain ⟨hv, hk⟩ := ih hs t ht
    refine ⟨?_, hk⟩
    show body.map _ = body.map _
    rw [hv]
  | derived₂ body left right ihl ihr =>
    obtain ⟨hl, hkl⟩ := ihl hs.1 t ht
    obtain ⟨hr, hkr⟩ := ihr hs.2 _ hkl
    refine ⟨?_, hkr⟩
    show body.map _ = body.map _
    rw [hl, hr]
  | stored stamp s ih =>
    cases hg : t.get? stamp.label with
    | some m =>
      simp only [evalOnce, hg]
      exact ⟨(ht _ _ hg).trans hs.1, ht⟩
    | none =>
      obtain ⟨hv, hk⟩ := ih hs.2 t ht
      simp only [evalOnce, hg]
      refine ⟨hv, fun l m h => ?_⟩
      change (Table.insert _ stamp.label _).get? l = some m at h
      rw [Table.get?_insert] at h
      split at h
      · next e =>
        cases h
        rw [e, hs.1]
        exact hv
      · exact hk l m h

end Eval

section Ground

variable [Ground α]

/-- The entries, read with values for some symbols. -/
def readAt (assigned : String → Option α) (s : Symbolic α) : Grid (Reading α) :=
  (s.evalOnce Reading.ofConstant (fun name => Reading.ofSymbol (assigned name)) .empty).1

/-- The entries as they are written. -/
def written (s : Symbolic α) : Grid (Written String α) :=
  (s.evalOnce Written.ofConstant Written.ofVariable .empty).1

end Ground

end Symbolic

end Attitude
