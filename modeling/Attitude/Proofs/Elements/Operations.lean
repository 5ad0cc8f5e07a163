import Attitude.Draw
import Attitude.Proofs.Elements.Closure
import Attitude.Proofs.Elements.Shapes

/-!
# What operations of elements promise

Each operation on elements of the encodings that exist from the start answers new data of the shape
that its result has, or refuses (`Settings.Refuses`). That holds whatever the entries are: an
operation does not ask whether they are a rotation.

Data that comes from outside may be refused for other reasons, so of the operations that take such
data only the answer is promised.
-/

namespace Attitude

open Asking

variable {α : Type} [Ground α]

/-- An element of a class that computes like its encoding, with data of the shape of the encoding.
-/
structure Subject.Regular (a : Subject α) : Prop where
  cls : a.cls.Regular
  fits : a.held.datum.Fits a.cls.family.shape

/-- A class that computes like its encoding, if it has elements. -/
def ElementClass.Regular (c : ElementClass) : Prop := ∀ f ∈ c.family, c.tag = some f.tag

/-- The elements of a regular class are regular. -/
theorem ElementClass.Regular.of_concrete {c : ElementClass} {k : ConcreteClass} (hc : c.Regular)
    (hk : c.concrete = .ok k) : k.Regular := by
  unfold concrete at hk
  cases hf : c.family with
  | none => rw [hf] at hk; cases hk
  | some f =>
    rw [hf] at hk
    cases hk
    exact hc f hf

/-- Identity data is new, and has the shape of the family. -/
theorem Family.identity_new (f : Family) (t : ScalarType) :
    (f.identity t : Held α).IsNew f.shape := by
  cases f with
  | matrix => exact ⟨Datum.fits_ofNumbers t Mat3.one.toGrid, rfl⟩
  | quaternion => exact Held.isNew_ofNumbers t Quaternion.one.toGrid
  | rotationVector | euler | rodrigues => exact Held.isNew_ofNumbers t Vec3.zero.toGrid

/-! ## Products and transposes of matrices -/

namespace Sheet

variable {E : Fault → Prop} {x y : Sheet α}

/-- Products of matrices have their shape. -/
theorem product_fits (hx : x.datum.shape = [3, 3]) (hy : y.datum.shape = [3, 3]) :
    Meets E (fun z => z.datum.Fits [3, 3]) (x.product y) :=
  .bind (Datum.apply₂_fits multiplied_takes hx hy) fun _ hd => .ok hd

/-- The transpose of a matrix of three rows and columns has its shape. -/
theorem transpose_fits (hx : x.datum.shape = [3, 3]) :
    Meets E (fun z => z.datum.Fits [3, 3]) x.transpose :=
  .bind (Datum.apply_fits (transposed_takes 3 3) hx) fun _ hd => .ok hd

theorem negate_fits (x : Sheet α) : Meets E (fun z => z.datum.Fits x.datum.shape) x.negate :=
  .bind (Datum.apply_fits (negated_takes _) rfl) fun _ hd => .ok hd

/-- A changed entry leaves the shape as it is. -/
theorem setEntry_fits (x : Sheet α) (p : Position) (v : α) :
    Meets (fun _ => True) (fun z => z.datum.Fits x.datum.shape) (x.setEntry p v) := by
  unfold setEntry
  exact .bind (.self _) fun ⟨i, j⟩ _ => .bind (Datum.apply_fits (replaced_takes i j v _) rfl)
    fun _ hd => .ok hd

end Sheet

namespace Context

variable {ctx : Context α} {h : Held α}

/-! ## Taking data -/

variable {c : ConcreteClass}

/-- Data that is taken is a copy, and has passed the check of its shape. -/
theorem takeData_new (hreg : ctx.registry = Catalog.builtinRegistry) (hc : c.Regular)
    (hh : h.datum.Legible) :
    Meets (fun _ => True) (Held.IsNew c.family.shape) (ctx.takeData c h) := by
  unfold takeData
  rw [hreg, hc.key_eq, c.family.find]
  show Meets _ _ (do
    if h.datum.shape ≠ c.family.shape then throw .wrongShape
    ctx.checkRotation c h
    pure h.copy)
  by_cases hshape : h.datum.shape = c.family.shape
  · rw [if_neg (Decidable.not_not.2 hshape)]
    exact .bind (.self _) fun _ _ => .ok (Held.isNew_copy ⟨hshape, hh⟩)
  · rw [if_pos hshape]
    exact .error trivial

/-- Data from a matrix is a copy of the right shape. -/
theorem takeMatrix_new (hreg : ctx.registry = Catalog.builtinRegistry) (hc : c.Regular)
    (hh : h.datum.Legible) :
    Meets (fun _ => True) (Held.IsNew c.family.shape) (ctx.takeMatrix c h) := by
  unfold takeMatrix
  by_cases hshape : h.datum.shape = [3, 3]
  · rw [if_neg (Decidable.not_not.2 hshape)]
    exact .bind (Datum.closed_legible.fromCanonical hh c.key) fun _ hk => takeData_new hreg hc hk
  · rw [if_pos hshape]
    exact .error trivial

/-- Drawn data is new, and has the right shape. -/
theorem takeDraw_new (hreg : ctx.registry = Catalog.builtinRegistry) (hc : c.Regular)
    (q : Quaternion α) :
    Meets (fun _ => True) (Held.IsNew c.family.shape) (ctx.takeDraw c q) := by
  have hmatrix : (Held.fresh (.numeric q.toDrawnMatrix.toGrid) : Held α).datum.Legible := trivial
  have htake := takeMatrix_new hreg hc hmatrix
  unfold takeDraw
  cases hf : c.family with
  | matrix => exact .ok (Held.isNew_ofNumbers .numeric q.toDrawnMatrix.toGrid)
  | quaternion => exact .ok (Held.isNew_ofNumbers .numeric q.toGrid)
  | rotationVector => exact .ok (Held.isNew_ofNumbers .numeric q.toDrawnRotationVector.toGrid)
  | euler =>
    rw [hf] at htake
    exact htake
  | rodrigues =>
    -- as for Euler angles, the draw goes through its matrix
    rw [hf] at htake
    exact htake

/-- An exponential is new data for a class that has elements. -/
theorem exp_new (hreg : ctx.registry = Catalog.builtinRegistry) {c : ElementClass}
    (hc : c.Regular) (hh : h.datum.Legible) :
    Fulfils ctx.registry (fun _ => True) (fun p => p.1.Regular ∧ p.2.IsNew p.1.family.shape)
      (ctx.exp c h) := by
  unfold exp
  split
  · exact .throw trivial
  · exact .bind (.of_ensures (Datum.closed_legible.convert hh ctx _ _)) fun _ hk =>
      .read (.of_answer fun _ => hc.of_concrete) fun c hc =>
        .read (takeData_new hreg hc hk) fun _ hk' => .pure ⟨hc, hk'⟩

/-! ## Other encodings of an element -/

section Regular

variable [LawfulDifferences α] (hreg : ctx.registry = Catalog.builtinRegistry) {a b : Subject α}
include hreg

/-- **Conversions.** From data of its shape every family converts into every other one, to new data.
Nothing but symmetry can be refused. -/
theorem convert_new (f g : Family) (hh : h.datum.Fits f.shape) :
    Fulfils ctx.registry ctx.settings.Refuses (Held.IsNew g.shape)
      (ctx.convert h (.tag f.tag) (.tag g.tag)) := by
  obtain ⟨route, hroute, htakes⟩ := f.resolve g
  rw [← hreg] at hroute
  exact .bind (.route ctx (.of_eq_ok hroute htakes)) fun r hr =>
    .lift (Settings.applyRoute_new hr hh)

/-- Coordinates of an element are new data. -/
theorem coordinates_new (ha : a.Regular) (g : Family) :
    Fulfils ctx.registry ctx.settings.Refuses (Held.IsNew g.shape)
      (ctx.coordinates a (.tag g.tag)) := by
  unfold coordinates
  rw [ha.cls.key_eq]
  exact convert_new hreg a.cls.family g ha.fits

theorem dataFor_new (ha : a.Regular) (hc : c.Regular) :
    Fulfils ctx.registry ctx.settings.Refuses (Held.IsNew c.family.shape) (ctx.dataFor c a) := by
  unfold dataFor
  rw [hc.key_eq]
  exact coordinates_new hreg ha c.family

/-- A copy of an element is regular, too. -/
theorem copy_regular (ha : a.Regular) :
    Fulfils ctx.registry ctx.settings.Refuses (fun h => Subject.Regular ⟨a.cls, h⟩)
      (ctx.dataFor a.cls a) :=
  (dataFor_new hreg ha ha.cls).mono (fun _ => id) fun _ hh => ⟨ha.cls, hh.fits⟩

/-- The matrix of an element is new data. -/
theorem rotationMatrix_new (ha : a.Regular) :
    Meets ctx.settings.Refuses (Held.IsNew [3, 3]) (ctx.rotationMatrix a) := by
  unfold rotationMatrix toCanonical
  obtain ⟨l, hlink, htakes⟩ := a.cls.family.canonicalLink
  rw [ha.cls.key_eq, hreg, hlink]
  exact Settings.applyLink_new htakes ha.fits

/-! ## Group operations -/

/-- A product by way of the matrices is new data. -/
theorem matrixProduct_new (ha : a.Regular) (hb : b.Regular) :
    Meets ctx.settings.Refuses (Held.IsNew [3, 3]) (ctx.matrixProduct a b) :=
  .bind (rotationMatrix_new hreg ha) fun _ hm => .bind (rotationMatrix_new hreg hb) fun _ hn =>
    .map (Datum.apply₂_fits multiplied_takes hm.fits.shape hn.fits.shape) fun _ hd => ⟨hd, rfl⟩

/-- **Products** answer new data in the shape of the first factor. -/
theorem mul_new (ha : a.Regular) (hb : b.Regular) :
    Fulfils ctx.registry ctx.settings.Refuses (Held.IsNew a.cls.family.shape) (ctx.mul a b) := by
  have hfits := ha.fits
  unfold mul
  -- the shape of the answer is that of the formula, which the family decides
  cases hf : a.cls.family with
  | matrix =>
    rw [hf] at hfits
    exact .read (rotationMatrix_new hreg hb) fun n hn =>
      .read (Sheet.product_fits hfits.shape hn.fits.shape) fun _ hx => .pure ⟨hx, rfl⟩
  | quaternion =>
    rw [hf] at hfits
    exact .bind (coordinates_new hreg hb .quaternion) fun q hq =>
      .lift (.map (Datum.apply₂_fits (fun constant _ _ => Formula.apply_quaternionMul (constant _))
        hfits.shape hq.fits.shape) fun _ hd => ⟨hd, rfl⟩)
  | rodrigues =>
    rw [hf] at hfits
    exact .bind (coordinates_new hreg hb .rodrigues) fun r hr =>
      .lift (.map (Datum.apply₂_fits (fun constant _ _ => Formula.apply_rodriguesMul (constant _))
        hfits.shape hr.fits.shape) fun _ hd => ⟨hd, rfl⟩)
  | rotationVector =>
    exact .read (matrixProduct_new hreg ha hb) fun m hm =>
      .lift (Settings.applyFormula_new rfl hm.fits)
  | euler =>
    exact .read (matrixProduct_new hreg ha hb) fun m hm =>
      .lift (Settings.applyFormula_new rfl hm.fits)

/-- **Inverses** answer new data in the shape of the element. -/
theorem inv_new (ha : a.Regular) :
    Meets ctx.settings.Refuses (Held.IsNew a.cls.family.shape) (ctx.inv a) := by
  have hfits := ha.fits
  unfold inv
  cases hf : a.cls.family with
  | matrix =>
    rw [hf] at hfits
    exact .bind (Sheet.transpose_fits hfits.shape) fun _ hx => .ok ⟨hx, rfl⟩
  | quaternion =>
    rw [hf] at hfits
    exact Settings.applyFormula_new rfl hfits
  | rotationVector | rodrigues =>
    rw [hf] at hfits
    exact .bind (Sheet.negate_fits _) fun _ hx => .ok ⟨hfits.shape ▸ hx, rfl⟩
  | euler =>
    exact .bind (rotationMatrix_new hreg ha) fun m hm =>
      .bind (Datum.apply_fits (transposed_takes 3 3) hm.fits.shape) fun d hd =>
        Settings.applyFormula_new rfl hd

end Regular

/-! ## Operations of one family -/

variable {a : Subject α}

theorem angle_of_rotationVector (ha : a.Regular) (hf : a.cls.family = .rotationVector) :
    Meets (fun _ => False) (fun _ => True) (angle a) := by
  have hshape : [a.held.datum.rows, a.held.datum.cols] = [3, 1] := by
    have hfits := ha.fits.shape
    rwa [hf] at hfits
  -- a column has a length, which is all that an angle asks for
  have hcols : a.held.datum.cols = 1 := by simpa using (List.cons.inj hshape).2
  have hlength :
      Transform.Takes (fun _ m => .ok (Grid.single m.norm) : Transform α) [3, 1] [1, 1] :=
    fun _ m _ => ⟨_, rfl, rfl⟩
  unfold angle
  rw [hf]
  simp only [hcols, or_true, if_true]
  exact .map (Datum.apply_fits hlength hshape) fun _ _ => trivial

theorem shadow_of_rodrigues [LawfulDifferences α] (ha : a.Regular)
    (hf : a.cls.family = .rodrigues) :
    Meets ctx.settings.Refuses (fun _ => True) (ctx.shadow a) := by
  have hfits := ha.fits
  rw [hf] at hfits
  unfold shadow
  rw [hf]
  exact (Settings.applyFormula_new rfl hfits).mono (fun _ => id) fun _ _ => trivial

end Context

end Attitude
