import Attitude.Proofs.Elements.Agreement
import Attitude.Proofs.Rotation.OfMatrix
import Attitude.Proofs.Rotation.Rodrigues
import Attitude.Proofs.Rotation.Validity
import Attitude.Session.Catalog

/-!
# Three encodings of a rotation

Matrices, unit quaternions and modified Rodrigues parameters encode rotations without a limit of
precision. `Encoding.Encodes k m R` says that the data `m` of the encoding `k` stands for the
rotation `R`, and every operation of elements is stated by what it does to `R`: a conversion keeps
it, the product and the inverse are those of matrices.

A quaternion and its negative stand for one rotation, and so do parameters and their shadow set. No
statement says which of them an operation answers.
-/

namespace Attitude

/-- An encoding that is exact on every rotation. -/
inductive Encoding where
  | matrix
  | quaternion
  | rodrigues
  deriving DecidableEq, Repr

/-- The parameters of a rotation have it for their matrix. -/
theorem Rodrigues.toMat3_ofMat3 {R : Mat3 ℝ} (hR : R.IsRotation) :
    toMat3 (ofMat3 R) = R := by
  rw [ofMat3, toMat3_ofQuaternion (Quaternion.isUnit_ofMat3 hR), Quaternion.toMat3_ofMat3 hR]

namespace Encoding

/-- The tag of the data. -/
def tag : Encoding → Tag
  | matrix => .matrix
  | quaternion => .quaternion
  | rodrigues => .rodrigues

/-- The name of the class of elements. -/
def name : Encoding → String
  | matrix => "Dcm"
  | quaternion => "Quat"
  | rodrigues => "Mrp"

/-- How elements compute. -/
def family : Encoding → Family
  | matrix => .matrix
  | quaternion => .quaternion
  | rodrigues => .rodrigues

/-- The class of elements. -/
def cls (k : Encoding) : ConcreteClass := ⟨k.name, k.family, some k.tag⟩

/-- The data `m` is valid and stands for the rotation `R`. -/
inductive Encodes : Encoding → Grid ℝ → Mat3 ℝ → Prop
  | matrix {R : Mat3 ℝ} (hR : R.IsRotation) : Encodes matrix R.toGrid R
  | quaternion {q : Quaternion ℝ} {R : Mat3 ℝ} (hq : q.IsUnit) (hR : q.toMat3 = R) :
      Encodes quaternion q.toGrid R
  | rodrigues {r : Vec3 ℝ} {R : Mat3 ℝ} (hR : Rodrigues.toMat3 r = R) :
      Encodes rodrigues r.toGrid R

variable {j k : Encoding} {m : Grid ℝ} {R : Mat3 ℝ}

theorem Encodes.isRotation (h : k.Encodes m R) : R.IsRotation := by
  cases h with
  | matrix hR => exact hR
  | quaternion hq hR => exact hR ▸ hq.isRotation
  | rodrigues hR => exact hR ▸ Rodrigues.isRotation_toMat3 _

/-- A rotation matrix encodes itself, and nothing else. -/
theorem encodes_matrix_iff : matrix.Encodes m R ↔ m = R.toGrid ∧ R.IsRotation := by
  constructor
  · rintro ⟨hR⟩
    exact ⟨rfl, hR⟩
  · rintro ⟨rfl, hR⟩
    exact .matrix hR

/-- The identity data encodes the identity, in either scalar type. -/
theorem encodes_identity (k : Encoding) (t : ScalarType) (σ : String → ℝ) :
    k.Encodes ((k.family.identity t : Held ℝ).datum.value σ) 1 := by
  cases k with
  | matrix => exact (Datum.value_ofNumbers σ t _).symm ▸ .matrix .one
  | quaternion =>
    exact (Datum.value_ofNumbers σ t _).symm ▸ .quaternion Quaternion.isUnit_one
      Quaternion.toMat3_one
  | rodrigues => exact (Datum.value_ofNumbers σ t _).symm ▸ .rodrigues Rodrigues.toMat3_zero

/-! ## Chains between encodings -/

/-- The one link of the chain from an encoding to another. -/
def link : Encoding → Encoding → Link Formula
  | matrix, matrix | quaternion, quaternion | rodrigues, rodrigues => .copy
  | matrix, quaternion => .rule .quaternionOfMatrix
  | matrix, rodrigues => .rule .rodriguesOfMatrix
  | quaternion, matrix => .rule .quaternionToMatrix
  | quaternion, rodrigues => .rule .rodriguesOfQuaternion
  | rodrigues, matrix => .rule .rodriguesToMatrix
  | rodrigues, quaternion => .rule .rodriguesToQuaternion

/-- Between two encodings there is one link. -/
theorem resolve_eq (j k : Encoding) : ∃ kind,
    Catalog.builtinRegistry.resolve (.tag j.tag) (.tag k.tag) = .ok ⟨kind, [link j k]⟩ := by
  cases j <;> cases k <;> exact ⟨_, rfl⟩

/-- The leg to the matrices is that link. -/
theorem canonicalLink_eq (k : Encoding) :
    Catalog.builtinRegistry.canonicalLink .toCanonical (.tag k.tag) = .ok (link k matrix) := by
  cases k <;> rfl

/-- No formula between two encodings is a copy or expects a skew-symmetric matrix. -/
theorem rule_of_link {f : Formula} (h : link j k = .rule f) :
    f ≠ .itself ∧ f ≠ .copy ∧ (f.skewInput? : Option (Transform ℝ)) = none := by
  cases j <;> cases k <;> cases h <;> exact ⟨nofun, nofun, rfl⟩

/-- A formula between two encodings keeps the rotation. -/
theorem apply_of_link {f : Formula} (h : link j k = .rule f) (eps : ℝ) (hm : j.Encodes m R) :
    SameOutcome (fun m' R => k.Encodes m' R) (f.apply eps [m]) (.ok R) := by
  -- one case for each pair of encodings: those with a link have a law of the formula behind it
  cases hm with
  | matrix hR =>
    cases k with
    | matrix => cases h
    | quaternion =>
      cases h
      exact .ok (.quaternion (Quaternion.isUnit_ofMat3 hR) (Quaternion.toMat3_ofMat3 hR))
    | rodrigues =>
      cases h
      exact .ok (.rodrigues (Rodrigues.toMat3_ofMat3 hR))
  | quaternion hq hR =>
    subst hR
    cases k with
    | matrix =>
      cases h
      exact .ok (.matrix hq.isRotation)
    | quaternion => cases h
    | rodrigues =>
      cases h
      exact .ok (.rodrigues (Rodrigues.toMat3_ofQuaternion hq))
  | @rodrigues r R hR =>
    subst hR
    cases k with
    | matrix =>
      cases h
      exact .ok (.matrix (Rodrigues.isRotation_toMat3 r))
    | quaternion =>
      cases h
      exact .ok (.quaternion (Rodrigues.isUnit_toQuaternion r) (Rodrigues.toMat3_eq r).symm)
    | rodrigues => cases h

end Encoding

/-! ## Data in the course of a computation -/

variable {σ : String → ℝ} {j k : Encoding} {h h' : Held ℝ} {A B R : Mat3 ℝ}

/-- A new matrix whose value is `m`. -/
structure Held.HasValue (σ : String → ℝ) (h : Held ℝ) (m : Grid ℝ) : Prop where
  home : h.home = none
  value : h.datum.value σ = m

/-- A new matrix that encodes the rotation `R`. -/
structure Held.Holds (σ : String → ℝ) (k : Encoding) (h : Held ℝ) (R : Mat3 ℝ) : Prop where
  home : h.home = none
  encodes : k.Encodes (h.datum.value σ) R

/-- An element of an exact class, with data that encodes a rotation. -/
inductive Subject.Holds (σ : String → ℝ) : Subject ℝ → Encoding × Mat3 ℝ → Prop
  | of (k : Encoding) {h : Held ℝ} {R : Mat3 ℝ} (hR : k.Encodes (h.datum.value σ) R) :
      Holds σ ⟨k.cls, h⟩ (k, R)

/-- Data holds a rotation if its numbers encode it. -/
theorem Held.holds_of_value {x : Except Fault (Held ℝ)} {y : Except Fault (Grid ℝ)}
    (hv : SameOutcome (HasValue σ) x y) (hk : SameOutcome k.Encodes y (.ok R)) :
    SameOutcome (Holds σ k) x (.ok R) :=
  hv.trans hk fun _ _ _ hv hk => ⟨hv.home, hv.value ▸ hk⟩

/-- The value of transformed data is the transform of its value. -/
theorem Datum.apply_value {f : Transform ℝ} (hf : f.Natural) (d : Datum ℝ) :
    SameOutcome (fun e m => e.value σ = m) (d.apply f) (f id (d.value σ)) :=
  .of_map_eq (g := id) <| (value_apply σ hf d).trans (Except.map_id ▸ rfl)

/-- The value of two pieces of data under a transform of two matrices. -/
theorem Datum.apply₂_value {f : Transform₂ ℝ} (hf : f.Natural) (d e : Datum ℝ) :
    SameOutcome (fun x m => x.value σ = m) (apply₂ f d e) (f id (d.value σ) (e.value σ)) :=
  .of_map_eq (g := id) <| (value_apply₂ σ hf d e).trans (Except.map_id ▸ rfl)

namespace Settings

variable (s : Settings ℝ)

/-- The value of the result of a formula is the formula of the value. -/
theorem applyFormula_value {f : Formula} (hitself : f ≠ .itself) (hcopy : f ≠ .copy)
    (hf : (f.skewInput? : Option (Transform ℝ)) = none) (h : Held ℝ) :
    SameOutcome (Held.HasValue σ) (s.applyFormula f h) (f.apply s.eps [h.datum.value σ]) := by
  rw [applyFormula_eq hitself hcopy, checkSkew_of_no_input s hf]
  exact (h.datum.apply_value (natural_transform f s.eps)).map_left fun _ _ hv => ⟨rfl, hv⟩

/-- The value of a formula of two arguments. -/
theorem applyFormula₂_value (f : Formula) (h h' : Held ℝ) :
    SameOutcome (Held.HasValue σ) (s.applyFormula₂ f h h')
      (f.apply s.eps [h.datum.value σ, h'.datum.value σ]) :=
  (Datum.apply₂_value (natural_transform₂ f s.eps) h.datum h'.datum).map_left
    fun _ _ hv => ⟨rfl, hv⟩

/-- The link between two encodings keeps the rotation. -/
theorem applyLink_holds (hj : j.Encodes (h.datum.value σ) R) (k : Encoding) :
    SameOutcome (Held.Holds σ k) (s.applyLink h (Encoding.link j k)) (.ok R) := by
  cases hl : Encoding.link j k with
  | copy =>
    have hjk : j = k := by
      cases j <;> cases k <;> first | rfl | cases hl
    subst hjk
    exact .ok ⟨rfl, hj⟩
  | rule f =>
    obtain ⟨hitself, hcopy, hskew⟩ := Encoding.rule_of_link hl
    exact Held.holds_of_value (s.applyFormula_value hitself hcopy hskew h)
      (Encoding.apply_of_link hl s.eps hj)

end Settings

end Attitude
