import Attitude.Formula
import Attitude.Proofs.Grid.Shapes
import Attitude.Proofs.Scalar.Hom

/-!
# Formulas commute with maps between scalars

Every formula is built from scalar operations alone, so it makes no difference whether a
homomorphism is applied to its arguments or to its result. The sections go up as the formulas do:
vectors, matrices, quaternions, the encodings, and matrices of any shape. The end is
`Formula.apply_map`, which includes that the formula fails on the same arguments.
-/

namespace Attitude

variable {β γ : Type}

/-! ## Vectors -/

namespace Vec3

@[simp]
theorem map_mk (f : β → γ) (x y z : β) : (⟨x, y, z⟩ : Vec3 β).map f = ⟨f x, f y, f z⟩ := rfl

@[simp] theorem map_x (f : β → γ) (a : Vec3 β) : (a.map f).x = f a.x := rfl
@[simp] theorem map_y (f : β → γ) (a : Vec3 β) : (a.map f).y = f a.y := rfl
@[simp] theorem map_z (f : β → γ) (a : Vec3 β) : (a.map f).z = f a.z := rfl

variable [Scalar β] [Scalar γ] (φ : ScalarHom β γ)

@[simp]
theorem map_add (a b : Vec3 β) : (a + b).map φ = a.map φ + b.map φ :=
  ext (φ.map_add _ _) (φ.map_add _ _) (φ.map_add _ _)

@[simp]
theorem map_sub (a b : Vec3 β) : (a - b).map φ = a.map φ - b.map φ :=
  ext (φ.map_sub _ _) (φ.map_sub _ _) (φ.map_sub _ _)

@[simp]
theorem map_neg (a : Vec3 β) : (-a).map φ = -a.map φ :=
  ext (φ.map_neg _) (φ.map_neg _) (φ.map_neg _)

@[simp]
theorem map_smul (k : β) (a : Vec3 β) : (a.smul k).map φ = (a.map φ).smul (φ k) :=
  ext (φ.map_mul _ _) (φ.map_mul _ _) (φ.map_mul _ _)

@[simp]
theorem map_sdiv (a : Vec3 β) (k : β) : (a.sdiv k).map φ = (a.map φ).sdiv (φ k) :=
  ext (φ.map_div _ _) (φ.map_div _ _) (φ.map_div _ _)

@[simp]
theorem map_select (c : β) (a b : Vec3 β) :
    (select c a b).map φ = select (φ c) (a.map φ) (b.map φ) :=
  ext (φ.map_select _ _ _) (φ.map_select _ _ _) (φ.map_select _ _ _)

@[simp]
theorem map_dot (a b : Vec3 β) : φ (a.dot b) = (a.map φ).dot (b.map φ) := by
  simp [dot]

@[simp]
theorem map_cross (a b : Vec3 β) : (a.cross b).map φ = (a.map φ).cross (b.map φ) := by
  simp [cross]

@[simp]
theorem map_norm (a : Vec3 β) : φ a.norm = (a.map φ).norm := by
  simp [norm]

end Vec3

/-! ## Matrices of three rows and columns -/

namespace Mat3

@[simp]
theorem map_transpose (f : β → γ) (m : Mat3 β) : m.transpose.map f = (m.map f).transpose := rfl

@[simp]
theorem map_vee (f : β → γ) (m : Mat3 β) : m.vee.map f = (m.map f).vee := rfl

@[simp] theorem map_row₁ (f : β → γ) (m : Mat3 β) : m.row₁.map f = (m.map f).row₁ := rfl
@[simp] theorem map_row₂ (f : β → γ) (m : Mat3 β) : m.row₂.map f = (m.map f).row₂ := rfl
@[simp] theorem map_row₃ (f : β → γ) (m : Mat3 β) : m.row₃.map f = (m.map f).row₃ := rfl
@[simp] theorem map_col₁ (f : β → γ) (m : Mat3 β) : m.col₁.map f = (m.map f).col₁ := rfl
@[simp] theorem map_col₂ (f : β → γ) (m : Mat3 β) : m.col₂.map f = (m.map f).col₂ := rfl
@[simp] theorem map_col₃ (f : β → γ) (m : Mat3 β) : m.col₃.map f = (m.map f).col₃ := rfl

variable [Scalar β] [Scalar γ] (φ : ScalarHom β γ)

/-- An entrywise operation commutes with maps that keep the operation. -/
theorem map_zipWith {f : β → β → β} {g : γ → γ → γ} (h : ∀ a b, φ (f a b) = g (φ a) (φ b))
    (m n : Mat3 β) : (zipWith f m n).map φ = zipWith g (m.map φ) (n.map φ) := by
  ext <;> exact h _ _

@[simp]
theorem map_add (m n : Mat3 β) : (m + n).map φ = m.map φ + n.map φ :=
  map_zipWith φ φ.map_add m n

@[simp]
theorem map_sub (m n : Mat3 β) : (m - n).map φ = m.map φ - n.map φ :=
  map_zipWith φ φ.map_sub m n

@[simp]
theorem map_smul (k : β) (m : Mat3 β) : (m.smul k).map φ = (m.map φ).smul (φ k) := by
  ext <;> exact φ.map_mul _ _

@[simp]
theorem map_sdiv (m : Mat3 β) (k : β) : (m.sdiv k).map φ = (m.map φ).sdiv (φ k) := by
  ext <;> exact φ.map_div _ _

@[simp]
theorem map_one : (one : Mat3 β).map φ = one := by
  ext <;> exact φ.map_lit _

@[simp]
theorem map_mul (m n : Mat3 β) : (m * n).map φ = m.map φ * n.map φ := by
  ext <;> exact Vec3.map_dot φ _ _

@[simp]
theorem map_trace (m : Mat3 β) : φ m.trace = (m.map φ).trace := by
  simp [trace, map]

end Mat3

@[simp]
theorem Vec3.map_hat [Scalar β] [Scalar γ] (φ : ScalarHom β γ) (v : Vec3 β) :
    v.hat.map φ = (v.map φ).hat := by
  simp [hat, Mat3.map]

/-! ## Quaternions -/

namespace Quaternion

@[simp]
theorem map_mk (f : β → γ) (w x y z : β) :
    (⟨w, x, y, z⟩ : Quaternion β).map f = ⟨f w, f x, f y, f z⟩ := rfl

@[simp] theorem map_w (f : β → γ) (q : Quaternion β) : (q.map f).w = f q.w := rfl

@[simp]
theorem map_ofParts (f : β → γ) (w : β) (v : Vec3 β) :
    (ofParts w v).map f = ofParts (f w) (v.map f) := rfl

@[simp]
theorem map_vec (f : β → γ) (q : Quaternion β) : q.vec.map f = (q.map f).vec := rfl

variable [Scalar β] [Scalar γ] (φ : ScalarHom β γ)

@[simp]
theorem map_neg (q : Quaternion β) : (-q).map φ = -q.map φ := by
  ext <;> exact φ.map_neg _

@[simp]
theorem map_select (c : β) (p q : Quaternion β) :
    (select c p q).map φ = select (φ c) (p.map φ) (q.map φ) := by
  ext <;> exact φ.map_select _ _ _

@[simp]
theorem map_mul (p q : Quaternion β) : (p * q).map φ = p.map φ * q.map φ := by
  show (mul p q).map φ = mul (p.map φ) (q.map φ)
  simp [mul]

@[simp]
theorem map_conj (q : Quaternion β) : q.conj.map φ = (q.map φ).conj := by
  simp [conj]

@[simp]
theorem map_upper (q : Quaternion β) : q.upper.map φ = (q.map φ).upper := by
  simp [upper]

@[simp]
theorem map_toMat3 (q : Quaternion β) : q.toMat3.map φ = (q.map φ).toMat3 := by
  simp [toMat3, Mat3.map, map]

@[simp]
theorem map_ofMat3 (m : Mat3 β) : (ofMat3 m).map φ = ofMat3 (m.map φ) := by
  simp [ofMat3, halfRoot, Mat3.map, Mat3.trace]

/-- The coefficients and the half angle commute with homomorphisms. -/
@[simp]
theorem map_ofRotationVector (v : Vec3 β) :
    (ofRotationVector v).map φ = ofRotationVector (v.map φ) := by
  simp [ofRotationVector]

@[simp]
theorem map_toRotationVector (eps : β) (q : Quaternion β) :
    (q.toRotationVector eps).map φ = (q.map φ).toRotationVector (φ eps) := by
  have hw : φ q.upper.w = (q.map φ).upper.w := by rw [← map_upper, map_w]
  simp [toRotationVector, hw]

end Quaternion

/-! ## The other encodings -/

namespace Rodrigues

variable [Scalar β] [Scalar γ] (φ : ScalarHom β γ)

@[simp]
theorem map_shadow (eps : β) (r : Vec3 β) : (shadow eps r).map φ = shadow (φ eps) (r.map φ) := by
  simp [shadow]

@[simp]
theorem map_shadowIfOutside (eps : β) (r : Vec3 β) :
    (shadowIfOutside eps r).map φ = shadowIfOutside (φ eps) (r.map φ) := by
  simp [shadowIfOutside]

@[simp]
theorem map_toQuaternion (r : Vec3 β) : (toQuaternion r).map φ = toQuaternion (r.map φ) := by
  simp [toQuaternion]

@[simp]
theorem map_ofQuaternion (q : Quaternion β) :
    (ofQuaternion q).map φ = ofQuaternion (q.map φ) := by
  have hw : φ q.upper.w = (q.map φ).upper.w := by rw [← Quaternion.map_upper, Quaternion.map_w]
  simp [ofQuaternion, hw]

@[simp]
theorem map_mul (eps : β) (a b : Vec3 β) :
    (mul eps a b).map φ = mul (φ eps) (a.map φ) (b.map φ) := by
  simp [mul]

@[simp]
theorem map_toMat3 (r : Vec3 β) : (toMat3 r).map φ = toMat3 (r.map φ) := by
  simp [toMat3]

@[simp]
theorem map_ofMat3 (m : Mat3 β) : (ofMat3 m).map φ = ofMat3 (m.map φ) := by
  simp [ofMat3]

@[simp]
theorem map_toRotationVector (eps : β) (r : Vec3 β) :
    (toRotationVector eps r).map φ = toRotationVector (φ eps) (r.map φ) := by
  simp [toRotationVector]

@[simp]
theorem map_ofRotationVector (v : Vec3 β) :
    (ofRotationVector v).map φ = ofRotationVector (v.map φ) := by
  simp [ofRotationVector]

end Rodrigues

namespace RotationVector

variable [Scalar β] [Scalar γ] (φ : ScalarHom β γ)

@[simp]
theorem map_toMat3 (v : Vec3 β) : (toMat3 v).map φ = toMat3 (v.map φ) := by
  simp [toMat3]

@[simp]
theorem map_skewPart (m : Mat3 β) : (skewPart m).map φ = skewPart (m.map φ) := by
  simp [skewPart]

@[simp]
theorem map_cosAngle (m : Mat3 β) : φ (cosAngle m) = cosAngle (m.map φ) := by
  simp [cosAngle]

/-- The choice of the axis commutes with homomorphisms, as selections do. -/
theorem map_axis (m : Mat3 β) (c : β) (w : Vec3 β) :
    (axis m c w).map φ = axis (m.map φ) (φ c) (w.map φ) := by
  -- entries are read off the cleared symmetric part, so it has to be mapped as a whole
  have hxx (n : Mat3 β) : φ n.xx = (n.map φ).xx := rfl
  have hyy (n : Mat3 β) : φ n.yy = (n.map φ).yy := rfl
  have hzz (n : Mat3 β) : φ n.zz = (n.map φ).zz := rfl
  simp only [axis, hxx, hyy, hzz, Vec3.map_select, Vec3.map_sdiv, Vec3.map_neg, Vec3.map_dot,
    Vec3.map_norm, Mat3.map_col₁, Mat3.map_col₂, Mat3.map_col₃, Mat3.map_sdiv, Mat3.map_sub,
    Mat3.map_add, Mat3.map_transpose, Mat3.map_smul, Mat3.map_one, ScalarHom.map_less,
    ScalarHom.map_both, ScalarHom.map_atMost, ScalarHom.map_sqrt, ScalarHom.map_sub,
    ScalarHom.map_lit]

@[simp]
theorem map_ofMat3 (m : Mat3 β) : (ofMat3 m).map φ = ofMat3 (m.map φ) := by
  simp [ofMat3, map_axis, nearHalfTurn]

end RotationVector

namespace EulerAngles

variable [Scalar β] [Scalar γ] (φ : ScalarHom β γ)

@[simp]
theorem map_toMat3 (e : EulerAngles β) : e.toMat3.map φ = (e.map φ).toMat3 := by
  simp [toMat3, map, Mat3.map]

@[simp]
theorem map_ofMat3 (m : Mat3 β) : (ofMat3 m).map φ = ofMat3 (m.map φ) := by
  simp [ofMat3, map, Mat3.map, gimbalTolerance]

@[simp]
theorem map_toQuaternion (e : EulerAngles β) :
    e.toQuaternion.map φ = (e.map φ).toQuaternion := by
  simp [toQuaternion, map]

end EulerAngles

/-! ## Matrices of any shape -/

namespace Grid

variable [Scalar β] [Scalar γ] (φ : ScalarHom β γ)

theorem map_mul (a b : Grid β) (h : a.cols = b.rows) :
    (a.mul b h).map φ = (a.map φ).mul (b.map φ) h := by
  refine (map_ofFn _ _ _ _).trans (congrArg (ofFn a.rows b.cols) ?_)
  funext i j
  -- a sum from zero goes over to a sum from zero, one summand after the other
  have hsum : (List.finRange a.cols).foldl
      (fun s k => s + (a.map φ).get i k * (b.map φ).get (k.cast h) j) (φ (lit 0)) =
      φ ((List.finRange a.cols).foldl (fun s k => s + a.get i k * b.get (k.cast h) j) (lit 0)) :=
    List.foldl_hom φ (by simp)
  rw [φ.map_lit] at hsum
  exact hsum.symm

/-- Products of grids whose shapes may not go together. -/
theorem map_mul? (a b : Grid β) : (a.mul? b).map (map φ) = (a.map φ).mul? (b.map φ) := by
  simp only [mul?, toSingle?_map]
  cases a.toSingle? with
  | some x => simp only [Option.map_some, map_map, ScalarHom.map_mul]
  | none =>
    cases b.toSingle? with
    | some y => simp only [Option.map_some, Option.map_none, map_map, ScalarHom.map_mul]
    | none =>
      by_cases h : a.cols = b.rows
      · simp [h, map_mul]
      · simp [h]

/-- Entrywise operations of grids, with the shapes that are extended. -/
theorem map_join? {f : β → β → β} {g : γ → γ → γ} (h : ∀ x y, φ (f x y) = g (φ x) (φ y))
    (a b : Grid β) : (a.join? f b).map (map φ) = (a.map φ).join? g (b.map φ) := by
  simp only [join?, toSingle?_map]
  -- a single number goes with every entry; otherwise the shapes have to fit, which a map does
  -- not change
  cases a.toSingle? with
  | some x => simp only [Option.map_some, map_map, h]
  | none =>
    cases b.toSingle? with
    | some y => simp only [Option.map_some, Option.map_none, map_map, h]
    | none =>
      simp only [Option.map_none]
      by_cases hfit : a.rows = b.rows ∧ a.cols ∣ max a.cols b.cols ∧ b.cols ∣ max a.cols b.cols
      · have hfit' : (a.map φ).rows = (b.map φ).rows ∧
            (a.map φ).cols ∣ max (a.map φ).cols (b.map φ).cols ∧
            (b.map φ).cols ∣ max (a.map φ).cols (b.map φ).cols := hfit
        rw [dif_pos hfit, dif_pos hfit']
        refine congrArg some ((map_ofFn _ _ _ _).trans (congrArg (ofFn a.rows _) ?_))
        funext i j
        rw [h]
        exact (congr (congrArg g (get_map φ a _ _)) (get_map φ b _ _)).symm
      · have hfit' : ¬ ((a.map φ).rows = (b.map φ).rows ∧
            (a.map φ).cols ∣ max (a.map φ).cols (b.map φ).cols ∧
            (b.map φ).cols ∣ max (a.map φ).cols (b.map φ).cols) := hfit
        rw [dif_neg hfit, dif_neg hfit']
        rfl

theorem map_neg (m : Grid β) : m.neg.map φ = (m.map φ).neg := by
  simp only [neg, map_map, ScalarHom.map_neg]

theorem map_norm (m : Grid β) : φ m.norm = (m.map φ).norm := by
  have hsum : m.toList.foldl (fun s x => s + φ x * φ x) (φ (lit 0)) =
      φ (m.toList.foldl (fun s x => s + x * x) (lit 0)) :=
    List.foldl_hom φ (by simp)
  rw [norm, φ.map_sqrt, norm, toList_map, List.foldl_map, ← hsum, φ.map_lit]

end Grid

/-! ## Formulas by name -/

namespace Formula

/-- A formula of a fixed shape commutes with a map, if its reading and its body do. -/
theorem map_shaped {δ δ' : Type} {h : Grid β → Grid γ} {g : δ → δ'} {read : Grid β → Option δ}
    {read' : Grid γ → Option δ'} {f : δ → Grid β} {f' : δ' → Grid γ}
    (hread : ∀ m, read' (h m) = (read m).map g) (hf : ∀ x, h (f x) = f' (g x)) (m : Grid β) :
    (shaped read f m).map h = shaped read' f' (h m) := by
  unfold shaped
  rw [hread]
  cases read m with
  | some x => exact congrArg Except.ok (hf x)
  | none => rfl

/-- The same for a formula of two matrices. -/
theorem map_shaped₂ {δ δ' : Type} {h : Grid β → Grid γ} {g : δ → δ'} {read : Grid β → Option δ}
    {read' : Grid γ → Option δ'} {f : δ → δ → Grid β} {f' : δ' → δ' → Grid γ}
    (hread : ∀ m, read' (h m) = (read m).map g) (hf : ∀ x y, h (f x y) = f' (g x) (g y))
    (m n : Grid β) : (shaped₂ read f m n).map h = shaped₂ read' f' (h m) (h n) := by
  unfold shaped₂
  rw [hread, hread]
  cases read m with
  | none => rfl
  | some x =>
    cases read n with
    | some y => exact congrArg Except.ok (hf x y)
    | none => rfl

variable [Scalar β] [Scalar γ] (φ : ScalarHom β γ)

/-- **Formulas of one argument** commute with homomorphisms of scalars. -/
theorem apply_map_single (eps : β) (f : Formula) (m : Grid β) :
    (f.apply eps [m]).map (Grid.map φ) = f.apply (φ eps) [m.map φ] := by
  cases f with
  -- these take two arguments, so one is refused before and after
  | quaternionMul | rodriguesMul => rfl
  | copy | itself => rfl
  | quaternionConj => exact map_shaped (Grid.toQuaternion?_map φ) (by simp) m
  | quaternionToMatrix => exact map_shaped (Grid.toQuaternion?_map φ) (by simp) m
  | quaternionOfMatrix => exact map_shaped (Grid.toMat3?_map φ) (by simp) m
  | quaternionOfRotationVector => exact map_shaped (Grid.toVec3?_map φ) (by simp) m
  | quaternionToRotationVector => exact map_shaped (Grid.toQuaternion?_map φ) (by simp) m
  | rodriguesShadow => exact map_shaped (Grid.toVec3?_map φ) (by simp) m
  | rodriguesShadowIfOutside => exact map_shaped (Grid.toVec3?_map φ) (by simp) m
  | rodriguesToMatrix => exact map_shaped (Grid.toVec3?_map φ) (by simp) m
  | rodriguesToQuaternion => exact map_shaped (Grid.toVec3?_map φ) (by simp) m
  | rodriguesOfQuaternion => exact map_shaped (Grid.toQuaternion?_map φ) (by simp) m
  | rodriguesOfMatrix => exact map_shaped (Grid.toMat3?_map φ) (by simp) m
  | rodriguesToRotationVector => exact map_shaped (Grid.toVec3?_map φ) (by simp) m
  | rodriguesOfRotationVector => exact map_shaped (Grid.toVec3?_map φ) (by simp) m
  | eulerToMatrix => exact map_shaped (Grid.toEulerAngles?_map φ) (by simp) m
  | eulerOfMatrix => exact map_shaped (Grid.toMat3?_map φ) (by simp) m
  | eulerToQuaternion => exact map_shaped (Grid.toEulerAngles?_map φ) (by simp) m
  | rotationVectorToMatrix => exact map_shaped (Grid.toVec3?_map φ) (by simp) m
  | rotationVectorOfMatrix => exact map_shaped (Grid.toMat3?_map φ) (by simp) m
  | hat => exact map_shaped (Grid.toVec3?_map φ) (by simp) m
  | vee => exact map_shaped (Grid.toMat3?_map φ) (by simp) m
  | sinc => simp [apply, Except.map, Grid.map_map]
  | cosc => simp [apply, Except.map, Grid.map_map]
  | halfCosecant => simp [apply, Except.map, Grid.map_map]

/-- **Formulas of two arguments** commute with homomorphisms of scalars. -/
theorem apply_map_pair (eps : β) (f : Formula) (m n : Grid β) :
    (f.apply eps [m, n]).map (Grid.map φ) = f.apply (φ eps) [m.map φ, n.map φ] := by
  cases f with
  | quaternionMul => exact map_shaped₂ (Grid.toQuaternion?_map φ) (by simp) m n
  | rodriguesMul => exact map_shaped₂ (Grid.toVec3?_map φ) (by simp) m n
  | _ => rfl

/-- **Formulas are natural.** A formula of mapped arguments answers the mapped result, and fails
where the formula fails. -/
theorem apply_map (eps : β) (f : Formula) (args : List (Grid β)) :
    (f.apply eps args).map (Grid.map φ) = f.apply (φ eps) (args.map (Grid.map φ)) := by
  match args with
  | [] => cases f <;> rfl
  | [m] => exact apply_map_single φ eps f m
  | [m, n] => exact apply_map_pair φ eps f m n
  | _ :: _ :: _ :: _ => cases f <;> rfl

end Formula

end Attitude
