import Attitude.Proofs.Scalar.Differences
import Attitude.Scalar.Double
import Mathlib

/-!
# Differences of doubles

Double precision rounds every operation, but symmetrically: `a - b` and `b - a` are opposite values,
that is, the same magnitude with opposite signs, or both no number. Opposite values add up to zero,
or to no number where both are infinite. So differences of doubles cancel.

`UnpackedDouble.Opposed` is the relation of opposite values on unpacked doubles. Rounding and
packing keep it, and with it the statements go from the exact operation to the rounded one.
-/

namespace Attitude

namespace UnpackedDouble

open Float.Model (Format UnpackedFloat)
open Float.Model.UnpackedFloat

/-! ## Opposite values -/

/-- The same magnitude with opposite signs, or both no number. Zeros may have any signs. -/
inductive Opposed : UnpackedFloat → UnpackedFloat → Prop
  | notANumber : Opposed .notANumber .notANumber
  | infinity (s : Sign) : Opposed (.infinity s) (.infinity (-s))
  | zero (s t : Sign) : Opposed (.zero s) (.zero t)
  | finite (s : Sign) (m : Nat) (e : Int) (h : 0 < m) :
      Opposed (.finite s m e h) (.finite (-s) m e h)

/-- Rounding keeps signs apart: the same magnitude is rounded the same way. -/
theorem opposed_round (spec : Format) (s : Sign) (m : Nat) (e : Int) :
    Opposed (UnpackedFloat.round spec s m e) (UnpackedFloat.round spec (-s) m e) := by
  simp only [UnpackedFloat.round, roundWithAccuracy]
  split
  · exact .zero s (-s)
  · exact .finite s _ _ _

/-- Opposite whole numbers are rounded to opposite doubles. -/
theorem opposed_normalize (spec : Format) (n : Int) (e : Int) :
    Opposed (UnpackedFloat.normalize spec n e .positive)
      (UnpackedFloat.normalize spec (-n) e .positive) := by
  obtain hn | rfl | hn : n < 0 ∨ n = 0 ∨ 0 < n := by omega
  · have hpos : compare (-n) 0 = .gt := Int.compare_eq_gt.2 (by omega)
    simp only [UnpackedFloat.normalize, Int.compare_eq_lt.2 hn, hpos]
    exact opposed_round spec .negative _ e
  · exact .zero .positive .positive
  · have hneg : compare (-n) 0 = .lt := Int.compare_eq_lt.2 (by omega)
    simp only [UnpackedFloat.normalize, Int.compare_eq_gt.2 hn, hneg, Int.neg_neg]
    exact opposed_round spec .positive _ e

/-- The difference the other way around is the opposite, for all kinds of doubles. -/
theorem opposed_sub (spec : Format) (u v : UnpackedFloat) :
    Opposed (u.sub spec v) (v.sub spec u) := by
  cases u with
  | notANumber => cases v <;> exact .notANumber
  | infinity s =>
    cases v with
    | notANumber => exact .notANumber
    | infinity t => cases s <;> cases t <;> first | exact .notANumber | exact .infinity _
    | zero t => exact .infinity s
    | finite t m e h => exact .infinity s
  | zero s =>
    cases v with
    | notANumber => exact .notANumber
    | infinity t => cases t <;> exact .infinity _
    | zero t => cases s <;> cases t <;> exact .zero _ _
    | finite t m e h => cases t <;> exact .finite _ m e h
  | finite s m e h =>
    cases v with
    | notANumber => exact .notANumber
    | infinity t => cases t <;> exact .infinity _
    | zero t => exact .finite s m e h
    | finite t n f k =>
      -- both differences are rounded from the exact one at the smaller exponent
      let x := s.apply (decreaseExponent m e (min e f)).1
      let y := t.apply (decreaseExponent n f (min e f)).1
      have hround := opposed_normalize spec (x - y) (min e f)
      rw [Int.neg_sub] at hround
      simp only [UnpackedFloat.sub, Int.min_comm f e]
      exact hround

/-- Opposite values that are numbers add up to zero. -/
theorem add_of_opposed (spec : Format) {u v : UnpackedFloat} (h : Opposed u v) :
    u.add spec v = .notANumber ∨ ∃ s, u.add spec v = .zero s := by
  cases h with
  | notANumber => exact .inl rfl
  | infinity s => cases s <;> exact .inl rfl
  | zero s t => cases s <;> cases t <;> exact .inr ⟨_, rfl⟩
  | finite s m e h =>
    refine .inr ⟨.positive, ?_⟩
    have hsum (k : Int) : s.apply k + (-s).apply k = 0 := by
      cases s with
      | negative => exact Int.add_left_neg k
      | positive => exact Int.add_right_neg k
    simp only [UnpackedFloat.add, hsum]
    rfl

/-! ## Packing

A packed value is opposite to the one with the other sign bit, whatever its other bits. -/

/-- Of the packed parts only the sign bit tells opposites apart. -/
theorem opposed_unpack_components (s : Sign) (e : BitVec 11) (m : BitVec 52) :
    Opposed (unpack .binary64 (packComponents .binary64 s e m))
      (unpack .binary64 (packComponents .binary64 (-s) e m)) := by
  simp only [unpack, unpackMantissa_packComponents, unpackExponent_packComponents,
    unpackSign_packComponents, Sign.ofBitVec_toBitVec]
  split
  · split
    · exact .infinity s
    · exact .notANumber
  · split
    · split
      · exact .zero s (-s)
      · exact .finite s _ _ _
    · exact .finite s _ _ _

/-- Packing and unpacking keeps opposites. -/
theorem opposed_unpack_pack {u v : UnpackedFloat} (h : Opposed u v) :
    Opposed (unpack .binary64 (pack .binary64 u)) (unpack .binary64 (pack .binary64 v)) := by
  cases h with
  | notANumber => exact .notANumber
  | infinity s => exact opposed_unpack_components s _ _
  | zero s t =>
    have hzero (r : Sign) : unpack .binary64 (pack .binary64 (.zero r)) = .zero r := by
      cases r <;> rfl
    rw [hzero, hzero]
    exact .zero s t
  | finite s m e h =>
    -- too large, normal or subnormal: the bits besides the sign depend on the magnitude alone
    simp only [pack]
    split
    · exact opposed_unpack_components s _ _
    · split
      · exact opposed_unpack_components s _ _
      · exact opposed_unpack_components s _ _

end UnpackedDouble

namespace Double

open Float.Model (Format UnpackedFloat)
open UnpackedDouble

/-! ## Comparisons -/

/-- A comparison answers one or zero, and zero is what does not hold. -/
theorem holds_indicator (c : Bool) : Ground.holds (indicator c) = c := by
  cases c <;> decide

/-- The strict comparison on the unpacked doubles. -/
theorem lt_eq (a b : Float) : Ground.lt a b = a.toModel.unpack.lt b.toModel.unpack := by
  show Ground.holds (indicator (decide (a < b))) = _
  rw [holds_indicator]
  exact Bool.decide_eq_true.trans Bool.decide_eq_true

/-- The comparison on the unpacked doubles. -/
theorem le_eq (a b : Float) : Ground.le a b = a.toModel.unpack.le b.toModel.unpack := by
  show Ground.holds (indicator (decide (a ≤ b))) = _
  rw [holds_indicator]
  exact Bool.decide_eq_true.trans Bool.decide_eq_true

theorem unpack_zero : (lit 0 : Float).toModel.unpack = .zero .positive := rfl

/-! ## Sums of opposite doubles -/

/-- Opposite doubles cancel: their sum is zero, or a nan if they are infinite or no numbers. -/
theorem cancel_of_opposed {a b : Float} (h : Opposed a.toModel.unpack b.toModel.unpack) :
    Cancel a b := by
  intro tol htol hnumber
  rw [le_eq, unpack_zero] at htol
  have hsum : (FieldOps.abs (a + b)).toModel.unpack = (Float.Model.pack (Float.Model.pack
      (a.toModel.unpack.add .binary64 b.toModel.unpack)).unpack.abs).unpack := rfl
  obtain hnan | ⟨s, hzero⟩ := add_of_opposed .binary64 h
  · -- what is no number is not at most itself
    have habs : (FieldOps.abs (a + b)).toModel.unpack = .notANumber := by
      rw [hsum, hnan]
      rfl
    rw [Ground.isNumber, le_eq, habs] at hnumber
    cases hnumber
  · have habs : (FieldOps.abs (a + b)).toModel.unpack = .zero .positive := by
      rw [hsum, hzero]
      cases s <;> rfl
    -- a tolerance that is at least zero is not below zero
    rw [lt_eq, habs]
    cases htol' : tol.toModel.unpack with
    | notANumber => rfl
    | infinity t =>
      cases t with
      | negative => rw [htol'] at htol; cases htol
      | positive => rfl
    | zero t => rfl
    | finite t m e hm =>
      cases t with
      | negative => rw [htol'] at htol; cases htol
      | positive => rfl

/-- Differences of doubles the two ways around. -/
theorem opposed_sub (a b : Float) : Opposed (a - b).toModel.unpack (b - a).toModel.unpack :=
  opposed_unpack_pack (UnpackedDouble.opposed_sub .binary64 _ _)

/-- A double equals zero if it is one of the two zeros. -/
theorem same_zero_iff (a : Float) :
    Ground.same a (lit 0) = true ↔ ∃ s, a.toModel.unpack = .zero s := by
  rw [Ground.same, le_eq, le_eq, unpack_zero]
  cases a.toModel.unpack with
  | notANumber => exact ⟨nofun, nofun⟩
  | infinity s => cases s <;> exact ⟨nofun, nofun⟩
  | zero s => exact ⟨fun _ => ⟨s, rfl⟩, fun _ => rfl⟩
  | finite s m e h => cases s <;> exact ⟨nofun, nofun⟩

/-- The sign of a zero does not count, so it may be taken away on both sides. -/
theorem opposed_plain {a b : Float} (h : Opposed a.toModel.unpack b.toModel.unpack) :
    Opposed (Ground.plain a).toModel.unpack (Ground.plain b).toModel.unpack := by
  have hzero : Ground.same a (lit 0) = Ground.same b (lit 0) := by
    rw [Bool.eq_iff_iff, same_zero_iff, same_zero_iff]
    generalize a.toModel.unpack = u at h
    generalize b.toModel.unpack = v at h
    cases h with
    | zero s t => exact iff_of_true ⟨s, rfl⟩ ⟨t, rfl⟩
    | _ => exact ⟨nofun, nofun⟩
  rw [Ground.plain, Ground.plain, hzero]
  split
  · exact .zero .positive .positive
  · exact h

instance : LawfulDifferences Float where
  cancel_sub a b := cancel_of_opposed (opposed_sub a b)
  cancel_plain_sub a b := cancel_of_opposed (opposed_plain (opposed_sub a b))

end Double

end Attitude
