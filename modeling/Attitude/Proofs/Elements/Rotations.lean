import Attitude.Element
import Attitude.Proofs.Elements.Encodings

/-!
# Operations of elements on rotations

Every operation of elements in the three exact encodings does to the encoded rotation what its name
says: a conversion keeps it, the product and the inverse are the product and the transpose of
matrices, whatever the encodings of the operands. The tolerance `eps` only has to be nonnegative.

Fresh data of a rotation is taken as it is. Only the check of data can refuse it, and does so under
a negative tolerance, when it refuses everything.
-/

namespace Attitude

variable {σ : String → ℝ} {j k : Encoding} {h h' : Held ℝ} {A B R : Mat3 ℝ}

/-! ## Products and inverses of data -/

namespace Encoding

/-- The formula for products of data, where the data is no matrix. -/
def mulFormula? : Encoding → Option Formula
  | matrix => none
  | quaternion => some .quaternionMul
  | rodrigues => some .rodriguesMul

/-- The formula of a product answers data of the product of the rotations. -/
theorem apply_mulFormula {f : Formula} (hf : mulFormula? k = some f) {eps : ℝ} (heps : 0 ≤ eps)
    {m n : Grid ℝ} (hA : k.Encodes m A) (hB : k.Encodes n B) :
    SameOutcome k.Encodes (f.apply eps [m, n]) (.ok (A * B)) := by
  cases hA with
  | matrix hA => cases hf
  | quaternion hp hA =>
    cases hB with
    | quaternion hq hB =>
      cases hf
      subst hA hB
      exact .ok (.quaternion (hp.mul hq) (Quaternion.toMat3_mul ..))
  | rodrigues hA =>
    cases hB with
    | rodrigues hB =>
      cases hf
      subst hA hB
      exact .ok (.rodrigues (Rodrigues.toMat3_mul _ _ heps))

end Encoding

namespace Sheet

variable {x y : Sheet ℝ}

/-- The content is a matrix whose value is `m`. -/
def HasValue (σ : String → ℝ) (x : Sheet ℝ) (m : Grid ℝ) : Prop := x.datum.value σ = m

/-- The product of matrices that hold rotations. -/
theorem product_value (hA : x.HasValue σ A.toGrid) (hB : y.HasValue σ B.toGrid) :
    SameOutcome (HasValue σ) (x.product y) (.ok (A * B).toGrid) := by
  have hvalue := Datum.apply₂_value (σ := σ) natural_multiplied x.datum y.datum
  rw [hA, hB] at hvalue
  exact hvalue.map_left fun _ _ hv => hv

/-- The transpose of a matrix that holds a rotation. -/
theorem transpose_value (hA : x.HasValue σ A.toGrid) :
    SameOutcome (HasValue σ) x.transpose (.ok A.transpose.toGrid) := by
  have hvalue := x.datum.apply_value (σ := σ) natural_transposed
  rw [hA] at hvalue
  exact hvalue.map_left fun _ _ hv => hv

theorem negate_value {r : Vec3 ℝ} (hr : x.HasValue σ r.toGrid) :
    SameOutcome (HasValue σ) x.negate (.ok (-r).toGrid) := by
  have hvalue := x.datum.apply_value (σ := σ) natural_negated
  rw [hr] at hvalue
  exact hvalue.map_left fun _ _ hv => hv

end Sheet

/-- The formula of a product, on data that holds rotations. -/
theorem Settings.applyMulFormula_holds (s : Settings ℝ) (heps : 0 ≤ s.eps) {f : Formula}
    (hf : k.mulFormula? = some f) (hA : k.Encodes (h.datum.value σ) A)
    (hB : k.Encodes (h'.datum.value σ) B) :
    SameOutcome (Held.Holds σ k) (s.applyFormula₂ f h h') (.ok (A * B)) :=
  Held.holds_of_value (s.applyFormula₂_value f h h') (Encoding.apply_mulFormula hf heps hA hB)

/-! ## Operations of elements -/

namespace Context

section Conversions

variable {ctx : Context ℝ} (hreg : ctx.registry = Catalog.builtinRegistry)
include hreg

/-- A conversion keeps the rotation. -/
theorem convert_holds (hR : j.Encodes (h.datum.value σ) R) (k : Encoding) :
    Asking.Follows ctx.registry (Held.Holds σ k) (ctx.convert h (.tag j.tag) (.tag k.tag))
      (.ok R) := by
  obtain ⟨kind, hresolve⟩ := Encoding.resolve_eq j k
  have hroute := Asking.Follows.route ctx (.tag j.tag) (.tag k.tag)
  rw [congrArg (Registry.resolve · _ _) hreg, hresolve] at hroute
  refine .bind_ok hroute fun route hr => .lift ?_
  subst hr
  -- the chain has one link
  show SameOutcome _ (ctx.settings.applyLink h (Encoding.link j k) >>= .ok) _
  rw [show ∀ x : Except Fault (Held ℝ), x >>= .ok = x from fun x => by cases x <;> rfl]
  exact ctx.settings.applyLink_holds hR k

/-- The matrix of data that holds a rotation is the rotation. -/
theorem toCanonical_holds (hR : j.Encodes (h.datum.value σ) R) :
    SameOutcome (Held.Holds σ .matrix) (ctx.toCanonical h (.tag j.tag)) (.ok R) := by
  unfold toCanonical
  rw [hreg, Encoding.canonicalLink_eq]
  exact ctx.settings.applyLink_holds hR .matrix

/-- The rotation matrix of an element is the rotation that its data encodes. -/
theorem rotationMatrix_holds {a : Subject ℝ} (ha : Subject.Holds σ a (j, A)) :
    SameOutcome (Held.Holds σ .matrix) (ctx.rotationMatrix a) (.ok A) := by
  cases ha with
  | of k hA => exact toCanonical_holds hreg hA

/-- Coordinates of an element hold its rotation. -/
theorem coordinates_holds {a : Subject ℝ} (ha : Subject.Holds σ a (j, A)) (k : Encoding) :
    Asking.Follows ctx.registry (Held.Holds σ k) (ctx.coordinates a (.tag k.tag)) (.ok A) := by
  cases ha with
  | of j hA => exact convert_holds hreg hA k

/-- Data for another class holds the rotation. -/
theorem dataFor_holds {a : Subject ℝ} (ha : Subject.Holds σ a (j, A)) (k : Encoding) :
    Asking.Follows ctx.registry (Held.Holds σ k) (ctx.dataFor k.cls a) (.ok A) :=
  coordinates_holds hreg ha k

/-- The product of two elements is the product of their rotations, in the encoding of the first
one. -/
theorem mul_holds (heps : 0 ≤ ctx.settings.eps) {a b : Subject ℝ}
    (ha : Subject.Holds σ a (j, A)) (hb : Subject.Holds σ b (k, B)) :
    Asking.Follows ctx.registry (Held.Holds σ j) (ctx.mul a b) (.ok (A * B)) := by
  cases ha with
  | @of j h A hA =>
    cases j with
    | matrix =>
      -- the second factor comes over its leg, without a request
      refine .bind_ok (.lift (rotationMatrix_holds hreg hb)) fun n hn => ?_
      obtain ⟨hm, hA⟩ := Encoding.encodes_matrix_iff.1 hA
      obtain ⟨hn, hB⟩ := Encoding.encodes_matrix_iff.1 hn.encodes
      refine .bind_ok (.lift (Sheet.product_value hm hn)) fun x hx => .pure ⟨rfl, ?_⟩
      exact Encoding.encodes_matrix_iff.2 ⟨hx, hA.mul hB⟩
    | quaternion =>
      refine .bind_ok (coordinates_holds hreg hb .quaternion) fun q hq => .lift ?_
      exact ctx.settings.applyMulFormula_holds heps rfl hA hq.encodes
    | rodrigues =>
      refine .bind_ok (coordinates_holds hreg hb .rodrigues) fun r hr => .lift ?_
      exact ctx.settings.applyMulFormula_holds heps rfl hA hr.encodes

end Conversions

variable {ctx : Context ℝ}

/-- The inverse of an element is the transpose of its rotation. -/
theorem inv_holds {a : Subject ℝ} (ha : Subject.Holds σ a (k, A)) :
    SameOutcome (Held.Holds σ k) (ctx.inv a) (.ok A.transpose) := by
  cases ha with
  | @of k h A hA =>
    -- in each encoding the inverse has a law of its own, and each one transposes the matrix
    cases k with
    | matrix =>
      obtain ⟨hm, hA⟩ := Encoding.encodes_matrix_iff.1 hA
      exact (Sheet.transpose_value hm).bind_ok fun x hx =>
        .ok ⟨rfl, Encoding.encodes_matrix_iff.2 ⟨hx, hA.transpose⟩⟩
    | quaternion =>
      have hconj := ctx.settings.applyFormula_value (σ := σ) (f := .quaternionConj) nofun nofun
        rfl h
      generalize h.datum.value σ = m at hA hconj
      cases hA with
      | @quaternion q A hq hA =>
        subst hA
        exact Held.holds_of_value hconj (.ok (.quaternion hq.conj q.toMat3_conj))
    | rodrigues =>
      generalize hm : h.datum.value σ = m at hA
      cases hA with
      | @rodrigues r A hA =>
        subst hA
        exact (Sheet.negate_value hm).bind_ok fun x hx =>
          .ok ⟨rfl, hx ▸ .rodrigues (Rodrigues.toMat3_neg r)⟩

end Context

/-! ## Taking data -/

/-- The check of data is on and its tolerance is negative, so that it accepts nothing. -/
def Settings.refuses {α : Type} [Ground α] (s : Settings α) : Bool :=
  s.checks && Ground.lt s.validityTol (lit 0)

/-- Numbers are converted to numbers. -/
theorem Settings.numeric_of_applyLink {s : Settings ℝ} {l : Link Formula} {m : Grid ℝ}
    (hm : h.datum = .numeric m) (hl : s.applyLink h l = .ok h') : ∃ n, h'.datum = .numeric n := by
  cases l with
  | copy =>
    cases hl
    exact ⟨m, hm⟩
  | rule f =>
    obtain ⟨-, hdatum⟩ | happly := datum_of_applyFormula hl
    · exact ⟨m, hdatum.trans hm⟩
    · -- a transform of numbers makes numbers
      rw [hm] at happly
      obtain ⟨n, -, hn⟩ := exists_of_map_eq_ok happly
      exact ⟨n, hn.symm⟩

namespace Context

variable {ctx : Context ℝ} {m : Grid ℝ}

/-- Numbers stay numbers on the way to the matrix. -/
theorem numeric_of_toCanonical {x : Key} (hm : h.datum = .numeric m)
    (hx : ctx.toCanonical h x = .ok h') : ∃ n, h'.datum = .numeric n := by
  obtain ⟨l, -, hl⟩ := exists_of_bind_eq_ok hx
  exact Settings.numeric_of_applyLink hm hl

variable (hreg : ctx.registry = Catalog.builtinRegistry)
include hreg

/-- The rotation matrix of numbers is found, and it is a matrix of numbers. -/
theorem exists_toCanonical (hR : k.Encodes m R) :
    ∃ x, ctx.toCanonical (.fresh (.numeric m)) (.tag k.tag) = .ok x ∧
      x.datum = .numeric R.toGrid := by
  have hcanonical := toCanonical_holds (σ := fun _ => 0) hreg (h := .fresh (.numeric m)) hR
  cases hx : ctx.toCanonical (.fresh (.numeric m)) (.tag k.tag) with
  | error e =>
    rw [hx] at hcanonical
    cases hcanonical
  | ok x =>
    rw [hx] at hcanonical
    obtain ⟨hholds⟩ := hcanonical
    -- numbers are their own value
    obtain ⟨n, hn⟩ := numeric_of_toCanonical rfl hx
    obtain ⟨hvalue, -⟩ := Encoding.encodes_matrix_iff.1 hholds.encodes
    rw [hn] at hvalue
    obtain rfl : n = R.toGrid := hvalue
    exact ⟨x, rfl, hn⟩

/-- The check of data that encodes a rotation accepts it, unless the tolerance is negative. -/
theorem checkRotation_eq (hR : k.Encodes m R) :
    ctx.checkRotation k.cls (.fresh (.numeric m)) =
      if ctx.settings.refuses then .error (.notRotation k.name) else .ok () := by
  unfold checkRotation Settings.refuses
  cases ctx.settings.checks with
  | false => rfl
  | true =>
    obtain ⟨x, hx, hn⟩ := exists_toCanonical hreg hR
    have hnumbers : x.datum.numbers = .ok R.toGrid := by
      rw [hn]
      rfl
    have hrotation := Mat3.isRotation_iff hR.isRotation ctx.settings.validityTol
    have hnegative : Ground.lt ctx.settings.validityTol (lit 0) = true ↔
        ctx.settings.validityTol < 0 := by
      rw [Ground.lt_iff, lit_zero]
    simp only [show k.cls.key = .tag k.tag from rfl,
      show (Held.fresh (.numeric m)).datum.numbers? = some m from rfl, hx, hnumbers,
      Grid.isRotation_toGrid, bind, Except.bind, if_true, Bool.true_and]
    -- an exact rotation has no defect, so only a negative tolerance refuses it
    by_cases htol : 0 ≤ ctx.settings.validityTol
    · rw [if_pos (hrotation.2 htol), if_neg (mt hnegative.1 (not_lt.2 htol))]
    · rw [if_neg (mt hrotation.1 htol), if_pos (hnegative.2 (not_le.1 htol))]
      rfl

/-- What fresh data of a rotation comes to as the data of an element. -/
theorem takeData_holds (hR : k.Encodes m R) :
    SameOutcome (Held.Holds σ k) (ctx.takeData k.cls (.fresh (.numeric m)))
      (if ctx.settings.refuses then .error (.notRotation k.name) else .ok R) := by
  -- valid data has the shape that the traits of its encoding ask for
  have hfind : ctx.registry.find k.cls.key = .ok (k.tag, ⟨m.shape, .matrix⟩) := by
    rw [hreg]
    cases hR <;> rfl
  unfold takeData
  rw [hfind, checkRotation_eq hreg hR]
  show SameOutcome _ (if m.shape ≠ m.shape then _ else _) _
  rw [if_neg (not_not_intro rfl)]
  cases ctx.settings.refuses with
  | true => exact .error _
  | false => exact .ok ⟨rfl, hR⟩

end Context

end Attitude
