import Attitude.RotationVector
import Attitude.Symbolic.Reading
import Attitude.Validity

/-!
# Differences that cancel

A matrix less its transpose is skew-symmetric, because `a - b` and `b - a` cancel. In rounded
arithmetic that is a law of its own: the sum of the two is zero or no number, and neither exceeds a
tolerance that is not negative. `LawfulDifferences` is this law, also for differences whose zeros
have lost their sign, as those of constants in expressions do.

With it the skew part of a matrix passes the check for skew-symmetric matrices, whatever the matrix
(`Mat3.isSkew_skewPart`).
-/

namespace Attitude

variable {α : Type} [Ground α]

/-- The magnitude of the sum of two scalars exceeds no tolerance that is not negative. -/
def Cancel (a b : α) : Prop :=
  ∀ tol, Ground.le (lit 0) tol = true → Ground.isNumber (FieldOps.abs (a + b)) = true →
    Ground.lt tol (FieldOps.abs (a + b)) = false

/-- Scalars whose differences `a - b` and `b - a` cancel. -/
class LawfulDifferences (α : Type) [Ground α] : Prop where
  cancel_sub (a b : α) : Cancel (a - b) (b - a)
  cancel_plain_sub (a b : α) : Cancel (Ground.plain (a - b)) (Ground.plain (b - a))

variable {tol : α}

/-- Sums of numbers that cancel exceed no tolerance that is at least zero. For doubles they are
zero, or a nan, which exceeds nothing. -/
theorem exceeds_of_cancel (htol : Ground.le (lit 0) tol = true) {xs : List (α × α)}
    (hxs : ∀ p ∈ xs, Cancel p.1 p.2) :
    exceeds tol (xs.map fun p => FieldOps.abs (p.1 + p.2)) = false := by
  refine Bool.eq_false_iff.2 fun h => ?_
  obtain ⟨hnumbers, hlarge⟩ := Bool.and_eq_true_iff.1 h
  obtain ⟨y, hy, hexceeds⟩ := List.any_eq_true.1 hlarge
  have hnumber := List.all_eq_true.1 hnumbers y hy
  obtain ⟨p, hp, rfl⟩ := List.mem_map.1 hy
  rw [hxs p hp tol htol hnumber] at hexceeds
  cases hexceeds

namespace Mat3

/-- A matrix whose entries cancel those of its transpose is skew-symmetric up to any tolerance. -/
theorem isSkew_of_cancel (htol : Ground.le (lit 0) tol = true) {m : Mat3 α}
    (hm : ∀ p ∈ m.toList.zip m.transpose.toList, Cancel p.1 p.2) : m.isSkew tol = true := by
  have hdefect : (m.skewDefect.map FieldOps.abs).toList =
      (m.toList.zip m.transpose.toList).map fun p => FieldOps.abs (p.1 + p.2) := rfl
  rw [isSkew, hdefect, exceeds_of_cancel htol hm]
  rfl

end Mat3

/-! ## The skew part

An entry of the skew part and the entry across the diagonal are differences of the same two
entries. Of readings, they are constants together, and then differences of constants. -/

namespace RotationVector

variable {β γ : Type} [Scalar β]

/-- The skew part lists the differences of entries across the diagonal. -/
theorem toList_skewPart (n : Mat3 β) :
    (skewPart n).toList = (n.toList.zip n.transpose.toList).map fun p => p.1 - p.2 := rfl

/-- Across the diagonal of the skew part stands the opposite difference. -/
theorem zip_skewPart (g : β → γ) (n : Mat3 β) :
    ((skewPart n).map g).toList.zip ((skewPart n).map g).transpose.toList =
      (n.toList.zip n.transpose.toList).map fun p => (g (p.1 - p.2), g (p.2 - p.1)) := rfl

/-- So whatever is paired across the diagonal are two opposite differences. -/
theorem mem_zip_skewPart {g : β → γ} {n : Mat3 β} {p : γ × γ}
    (hp : p ∈ ((skewPart n).map g).toList.zip ((skewPart n).map g).transpose.toList) :
    ∃ a b : β, a - b ∈ (skewPart n).toList ∧ p = (g (a - b), g (b - a)) := by
  rw [zip_skewPart] at hp
  obtain ⟨q, hq, rfl⟩ := List.mem_map.1 hp
  refine ⟨q.1, q.2, ?_, rfl⟩
  rw [toList_skewPart]
  exact List.mem_map_of_mem hq

end RotationVector

section LawfulDifferences

variable [LawfulDifferences α]

/-- The skew part of a matrix of numbers is refused under no tolerance that is at least zero. -/
theorem Mat3.isSkew_skewPart (htol : Ground.le (lit 0) tol = true) (m : Mat3 α) :
    (RotationVector.skewPart m).isSkew tol = true := by
  refine isSkew_of_cancel htol fun p hp => ?_
  obtain ⟨a, b, -, rfl⟩ := RotationVector.mem_zip_skewPart (g := id) hp
  exact LawfulDifferences.cancel_sub a b

/-- Opposite differences of readings cancel where they are constants. -/
theorem Reading.cancel_sub {x y : Reading α} (h : (x - y).constant?.isSome) :
    Cancel ((x - y).constant?.getD (lit 0)) ((y - x).constant?.getD (lit 0)) := by
  cases x with
  | constant a =>
    cases y with
    | constant b => exact LawfulDifferences.cancel_plain_sub a b
    | computed b => cases h
    | unknown => cases h
  | computed a => cases y <;> cases h
  | unknown => cases y <;> cases h

/-- The constants of a skew part that is constant. -/
theorem Mat3.isSkew_constants_skewPart (htol : Ground.le (lit 0) tol = true)
    (n : Mat3 (Reading α)) (hn : ∀ x ∈ (RotationVector.skewPart n).toList, x.constant?.isSome) :
    ((RotationVector.skewPart n).map fun x => x.constant?.getD (lit 0)).isSkew tol = true := by
  refine isSkew_of_cancel htol fun p hp => ?_
  obtain ⟨a, b, hab, rfl⟩ := RotationVector.mem_zip_skewPart hp
  exact Reading.cancel_sub (hn _ hab)

end LawfulDifferences

end Attitude
