import Attitude.EulerAngles
import Attitude.Proofs.Elements.Checks
import Attitude.Proofs.Elements.Logarithms
import Attitude.Proofs.Exact.Real
import Attitude.Proofs.Rotation.EulerAngles
import Attitude.Proofs.Rotation.Exponential
import Attitude.Proofs.Symbolic.Value

/-!
# What a check of data accepts

The check of a rotation computes the matrix of the data of a class and asks how far it is from a
rotation. Over the real numbers the constants of symbolic data are numbers like any others
(`Datum.numbers?_of_apply`), so the question is one about the numbers of the data alone
(`checkRotation_of_numbers`).

Euler angles and parameters always have a rotation for their matrix, rotation vectors have one up to
1e-27, and of a quaternion two powers of the length decide. Data with symbols left is not checked.
-/

namespace Attitude

/-! ## Constants -/

/-- A real number as a constant. Over the real numbers a zero has no sign that it could lose. -/
noncomputable def Reading.ofReal : ScalarHom ℝ (Reading ℝ) where
  toFun := .constant
  map_lit _ := rfl
  map_unary op a := by cases op <;> exact (congrArg constant (Ground.plain_real _)).symm
  map_binary op a b := by cases op <;> exact (congrArg constant (Ground.plain_real _)).symm

/-- A real constant is read as it is, as there is no sign of zero to lose. -/
theorem Reading.ofConstant_real : (ofConstant : ℝ → Reading ℝ) = ofReal :=
  funext fun a => congrArg constant (Ground.plain_real a)

variable {m n : Grid ℝ}

/-- Readings that are all constants are the constants of a matrix of numbers. -/
theorem Symbolic.numbers?_eq_some_iff {s : Symbolic ℝ} :
    s.numbers? = some m ↔ s.reading = m.map Reading.ofReal := by
  constructor
  · intro h
    simp only [numbers?] at h
    split at h
    · next hall =>
      cases h
      rw [Grid.map_map]
      refine (Grid.ofFn_get _).symm.trans (congrArg _ (funext₂ fun i j => ?_))
      -- each entry has a constant, so it reads as nothing else
      have hsome := Grid.all_iff.1 hall i j
      generalize s.reading.get i j = x at hsome
      cases x with
      | constant a => rfl
      | computed a => cases hsome
      | unknown => cases hsome
    · cases h
  · intro h
    have hall : s.reading.all (·.constant?.isSome) = true := by
      rw [h, Grid.all, Grid.toList_map, List.all_map, List.all_eq_true]
      exact fun _ _ => rfl
    rw [numbers?, if_pos hall, h, Grid.map_map]
    exact congrArg some m.map_id

/-- The numbers of the result of a transform are the transform of the numbers. -/
theorem Datum.numbers?_of_apply {f : Transform ℝ} (hf : f.Natural) {d e : Datum ℝ}
    (hd : d.Legible) (hm : d.numbers? = some m) (h : d.apply f = .ok e) :
    ∃ n, e.numbers? = some n ∧ f id m = .ok n := by
  cases d with
  | numeric m' =>
    cases hm
    obtain ⟨n, hn, rfl⟩ := exists_of_map_eq_ok h
    exact ⟨n, rfl, hn⟩
  | symbolic s =>
    obtain ⟨body, hbody, rfl⟩ := exists_of_map_eq_ok h
    have hbody : f .const s.slots = .ok body := hbody
    have hreading : s.reading = m.map Reading.ofReal := Symbolic.numbers?_eq_some_iff.1 hm
    obtain ⟨hrows, hcols⟩ := Grid.shape_eq_iff.1 hd
    -- evaluation turns the positions into constants, and constants are numbers
    let φ := ScalarHom.eval (Reading.ofConstant : ℝ → Reading ℝ) (Symbolic.lookup s.reading)
      fun n => congrFun Reading.ofConstant_real n
    have hslots : s.slots.map φ = s.reading :=
      (Grid.map_ofFn _ _ _ _).trans (Symbolic.ofFn_lookup _ hrows hcols)
    have hconstants : (f .const s.slots).map (Grid.map φ) = f Reading.ofReal s.reading := by
      rw [hf φ .const s.slots, hslots, ← Reading.ofConstant_real]
      rfl
    have hnumbers : (f id m).map (Grid.map Reading.ofReal) = f Reading.ofReal s.reading := by
      rw [hf Reading.ofReal id m, hreading]
      rfl
    rw [hbody] at hconstants
    obtain ⟨n, hn, hbody⟩ := exists_of_map_eq_ok (hnumbers.trans hconstants.symm)
    exact ⟨n, Symbolic.numbers?_eq_some_iff.2 hbody.symm, hn⟩

namespace Settings

variable {s : Settings ℝ} {h k : Held ℝ}

/-- A formula that answers on data of numbers answers numbers, namely those that it has on the
numbers alone. -/
theorem numbers_of_applyFormula {f : Formula} (hh : h.datum.Legible)
    (hm : h.datum.numbers? = some m) (hk : s.applyFormula f h = .ok k) :
    ∃ n, k.datum.numbers? = some n ∧ f.apply s.eps [m] = .ok n := by
  obtain ⟨rfl | rfl, hdatum⟩ | happly := datum_of_applyFormula hk
  · exact ⟨m, hdatum ▸ hm, rfl⟩
  · exact ⟨m, hdatum ▸ hm, rfl⟩
  · exact Datum.numbers?_of_apply (natural_transform f s.eps) hh hm happly

/-- A link that answers on data of numbers answers what it has on the numbers alone. -/
theorem numbers_of_applyLink {l : Link Formula} (hh : h.datum.Legible)
    (hm : h.datum.numbers? = some m) (hk : s.applyLink h l = .ok k) :
    ∃ n, k.datum.numbers? = some n ∧ l.onNumbers s.eps m = .ok n := by
  cases l with
  | copy =>
    cases hk
    exact ⟨m, hm, rfl⟩
  | rule f => exact numbers_of_applyFormula hh hm hk

end Settings

/-! ## The matrix of data -/

namespace Family

/-- The data `m` of a family stands for the matrix `R`, which need not be a rotation. -/
inductive HasMatrix : Family → Grid ℝ → Mat3 ℝ → Prop
  | matrix (R : Mat3 ℝ) : HasMatrix matrix R.toGrid R
  | quaternion (q : Quaternion ℝ) : HasMatrix quaternion q.toGrid q.toMat3
  | rotationVector (v : Vec3 ℝ) : HasMatrix rotationVector v.toGrid (RotationVector.toMat3 v)
  | euler (e : EulerAngles ℝ) : HasMatrix euler e.toGrid e.toMat3
  | rodrigues (r : Vec3 ℝ) : HasMatrix rodrigues r.toGrid (Rodrigues.toMat3 r)

variable {f : Family} {R : Mat3 ℝ}

/-- The leg of a family finds the matrix that its data has. -/
theorem HasMatrix.onNumbers (h : f.HasMatrix m R) (eps : ℝ) : ∃ l,
    Catalog.builtinRegistry.canonicalLink .toCanonical (.tag f.tag) = .ok l ∧
      l.onNumbers eps m = .ok R.toGrid := by
  cases h <;> exact ⟨_, rfl, rfl⟩

/-- Data with a matrix has the shape of the family. -/
theorem HasMatrix.shape (h : f.HasMatrix m R) : m.shape = f.shape := by
  cases h <;> rfl

/-- Data that encodes a rotation has its matrix. -/
theorem Encodes.hasMatrix (h : f.Encodes m R) : f.HasMatrix m R := by
  cases h with
  | euler e => exact .euler e
  | exact hm =>
    cases hm with
    | matrix hR => exact .matrix R
    | quaternion hq hR => exact hR ▸ .quaternion _
    | rodrigues hR => exact hR ▸ .rodrigues _

/-- Data of the right shape stands for a matrix. -/
theorem exists_hasMatrix (hm : m.shape = f.shape) : ∃ R, f.HasMatrix m R := by
  cases f with
  | matrix =>
    obtain ⟨R, rfl⟩ := Grid.exists_mat3 hm
    exact ⟨_, .matrix R⟩
  | quaternion =>
    obtain ⟨q, rfl⟩ := Grid.exists_quaternion hm
    exact ⟨_, .quaternion q⟩
  | rotationVector =>
    obtain ⟨v, rfl⟩ := Grid.exists_vec3 hm
    exact ⟨_, .rotationVector v⟩
  | euler =>
    obtain ⟨v, rfl⟩ := Grid.exists_vec3 hm
    exact ⟨_, .euler ⟨v.x, v.y, v.z⟩⟩
  | rodrigues =>
    obtain ⟨r, rfl⟩ := Grid.exists_vec3 hm
    exact ⟨_, .rodrigues r⟩

/-- Rotation vectors, Euler angles and parameters: any three numbers are a rotation. -/
def Total (f : Family) : Prop := f = rotationVector ∨ f = euler ∨ f = rodrigues

/-- Families whose data always is a rotation have three numbers. -/
theorem Total.shape (hf : f.Total) : f.shape = [3, 1] := by
  obtain rfl | rfl | rfl := hf <;> rfl

/-- Any three numbers have a matrix that is a rotation up to 1e-27. -/
theorem HasMatrix.near (h : f.HasMatrix m R) (hf : f.Total) : R.NearRotation (1 / 10 ^ 27) := by
  have hnonneg : (0 : ℝ) ≤ 1 / 10 ^ 27 := by positivity
  cases h with
  | matrix R => simp [Total] at hf
  | quaternion q => simp [Total] at hf
  | rotationVector v => exact RotationVector.near_toMat3 v
  | euler e => exact e.isRotation_toMat3.near hnonneg
  | rodrigues r => exact (Rodrigues.isRotation_toMat3 r).near hnonneg

end Family

/-! ## Taking data -/

namespace Context

variable {ctx : Context ℝ} {h : Held ℝ} {c : ConcreteClass} {R : Mat3 ℝ}

section Builtin

variable (hreg : ctx.registry = Catalog.builtinRegistry)
include hreg

/-- The rotation matrix of constants has the numbers that the constants stand for. -/
theorem numbers_of_toCanonical (hc : c.Regular) (hh : h.datum.Fits c.family.shape) {m : Grid ℝ}
    (hm : h.datum.numbers? = some m) (hR : c.family.HasMatrix m R) :
    ∃ k, ctx.toCanonical h c.key = .ok k ∧ k.datum.numbers? = some R.toGrid := by
  obtain ⟨k, -, hk, -⟩ := toCanonical_of_numbers hreg hc hh (hm ▸ rfl)
  refine ⟨k, hk, ?_⟩
  obtain ⟨l, hl, hvalue⟩ := hR.onNumbers ctx.settings.eps
  unfold toCanonical at hk
  rw [hc.key_eq, hreg, hl] at hk
  obtain ⟨n, hn, hnumbers⟩ := Settings.numbers_of_applyLink hh.legible hm hk
  rw [hn, ← Except.ok.inj (hvalue.symm.trans hnumbers)]

/-- The rotation matrix of data is found, whatever the settings are, and has the value that the data
stands for. -/
theorem toCanonical_value (hc : c.Regular) (hh : h.datum.Fits c.family.shape) {σ : String → ℝ}
    (hR : c.family.HasMatrix (h.datum.value σ) R) :
    ∃ k, ctx.toCanonical h c.key = .ok k ∧ k.datum.value σ = R.toGrid := by
  obtain ⟨k, hk⟩ := exists_toCanonical_of_fits hreg hc hh
  refine ⟨k, hk, ?_⟩
  obtain ⟨l, hl, hvalue⟩ := hR.onNumbers ctx.settings.eps
  unfold toCanonical at hk
  rw [hc.key_eq, hreg, hl] at hk
  exact Except.ok.inj ((Settings.value_of_applyLink hk).symm.trans hvalue)

/-- **The check.** Constants are accepted if their matrix is a rotation up to the tolerance. -/
theorem checkRotation_of_numbers (hc : c.Regular) (hh : h.datum.Fits c.family.shape)
    (hchecks : ctx.settings.checks = true) {m : Grid ℝ} (hm : h.datum.numbers? = some m)
    (hR : c.family.HasMatrix m R) : ctx.checkRotation c h =
      if R.isRotation ctx.settings.validityTol then .ok () else .error (.notRotation c.name) := by
  obtain ⟨k, hk, hnumbers⟩ := numbers_of_toCanonical hreg hc hh hm hR
  obtain ⟨l, S, hl, hcomputed, hcheck⟩ := checkRotation_eq_ite hreg hc hh hchecks (hm ▸ rfl)
  obtain rfl : k = l := Except.ok.inj (hk.symm.trans hl)
  obtain rfl : R = S := Mat3.toGrid_injective (Option.some.inj (hnumbers.symm.trans hcomputed))
  exact hcheck

/-- Constants that are a rotation up to the tolerance are taken, and all are where checks are off.
-/
theorem takeData_of_near (hc : c.Regular) (hh : h.datum.Legible) {m : Grid ℝ}
    (hm : h.datum.numbers? = some m) (hR : c.family.HasMatrix m R)
    (hnear : ctx.settings.checks = false ∨ R.NearRotation ctx.settings.validityTol) :
    ctx.takeData c h = .ok h.copy := by
  have hfits : h.datum.Fits c.family.shape := ⟨(hh.shape_of_numbers? hm).symm.trans hR.shape, hh⟩
  have hcheck : ctx.checkRotation c h = .ok () := by
    cases hchecks : ctx.settings.checks with
    | false => exact checkRotation_of_unchecked hchecks c h
    | true =>
      obtain hoff | hnear := hnear
      · rw [hchecks] at hoff
        cases hoff
      · rw [checkRotation_of_numbers hreg hc hfits hchecks hm hR,
          if_pos ((Mat3.isRotation_iff_near _ _).2 hnear)]
  -- the shape fits and the check passes, so the copy is answered
  rw [takeData_eq hreg hc hfits.shape, hcheck]
  rfl

/-- Constants of a rotation are taken. -/
theorem takeData_of_rotation (hs : ctx.settings.Lenient) (hc : c.Regular) (hh : h.datum.Legible)
    {m : Grid ℝ} (hm : h.datum.numbers? = some m) (hR : c.family.HasMatrix m R)
    (hrotation : R.IsRotation) : ctx.takeData c h = .ok h.copy := by
  refine takeData_of_near hreg hc hh hm hR (hs.imp_right fun htol => hrotation.near ?_)
  rwa [Ground.le_iff, lit_zero] at htol

variable (hchecks : ctx.settings.checks = true)
include hchecks

/-- Data with symbols left is taken unseen. -/
theorem takeData_of_symbols (hc : c.Regular) (hshape : h.datum.shape = c.family.shape)
    (hsymbols : h.datum.numbers? = none) : ctx.takeData c h = .ok h.copy := by
  rw [takeData_eq hreg hc hshape]
  simp only [checkRotation, hchecks, hsymbols, if_true, Except.map]

/-- **Total encodings.** Any data of the right shape is taken, if the tolerance covers the defect of
the exponential. -/
theorem takeData_of_total (hc : c.Regular) (hh : h.datum.Fits c.family.shape)
    (htotal : c.family.Total) (htol : 1 / 10 ^ 27 ≤ ctx.settings.validityTol) :
    ctx.takeData c h = .ok h.copy := by
  cases hm : h.datum.numbers? with
  | none => exact takeData_of_symbols hreg hchecks hc hh.shape hm
  | some m =>
    have hshape : m.shape = c.family.shape := (hh.legible.shape_of_numbers? hm).trans hh.shape
    obtain ⟨R, hR⟩ := Family.exists_hasMatrix hshape
    exact takeData_of_near hreg hc hh.legible hm hR (.inr ((hR.near htotal).mono htol))

/-- **Quaternions.** Of numbers two powers of the squared length decide. -/
theorem takeData_of_quaternion (hc : c.Regular) (hh : h.datum.Legible)
    (hf : c.family = .quaternion) {q : Quaternion ℝ} (hq : h.datum.numbers? = some q.toGrid) :
    ctx.takeData c h =
      if ctx.settings.validityTol < |q.normSq ^ 2 - 1| ∨
        ctx.settings.validityTol < |q.normSq ^ 3 - 1|
      then .error (.notRotation c.name) else .ok h.copy := by
  have hfits : h.datum.Fits c.family.shape :=
    ⟨(hh.shape_of_numbers? hq).symm.trans (hf ▸ rfl), hh⟩
  have hmatrix : c.family.HasMatrix q.toGrid q.toMat3 := hf ▸ .quaternion q
  have hrefused : ¬ q.toMat3.isRotation ctx.settings.validityTol = true ↔
      ctx.settings.validityTol < |q.normSq ^ 2 - 1| ∨
        ctx.settings.validityTol < |q.normSq ^ 3 - 1| := by
    -- refused is what is not near, and the two defects of a quaternion are powers of its length
    rw [Mat3.isRotation_iff_near, Quaternion.near_toMat3_iff, not_and_or, not_le, not_le]
  rw [takeData_eq hreg hc hfits.shape, checkRotation_of_numbers hreg hc hfits hchecks hq hmatrix,
    ← ite_not, if_congr hrefused rfl rfl]
  split <;> rfl

end Builtin

end Context

end Attitude
