import Attitude.Proofs.Elements.Agreement
import Attitude.Proofs.Formula.Shapes
import Attitude.Proofs.Scalar.Differences
import Attitude.Proofs.Session.Contracts
import Attitude.Session.Catalog

/-!
# The shapes of elements

The data of an element has the shape of its encoding, and every operation keeps it so. An operation
on two such elements has an answer, whatever their entries, with one exception: the logarithm of a
rotation matrix asks whether the skew part of the matrix is skew-symmetric, which it always is, but
up to a tolerance, which may be negative. `Settings.Lenient` excludes that, and `Settings.Refuses`
is the fault that is left otherwise.

So each operation has one contract here: data of the right shape that is no object yet, or the
refusal. The contracts are about the encodings that exist from the start.
-/

namespace Attitude

/-! ## The encodings that exist from the start -/

/-- The tag of the data of a family. -/
def Family.tag : Family → Tag
  | .matrix => .matrix
  | .quaternion => .quaternion
  | .rotationVector => .rotationVector
  | .euler => .euler
  | .rodrigues => .rodrigues

/-- The shape of the data of a family. -/
def Family.shape : Family → List Nat
  | .matrix => [3, 3]
  | .quaternion => [4, 1]
  | .rotationVector | .euler | .rodrigues => [3, 1]

/-- Each family has its traits in the tables that are built in. -/
theorem Family.traits (f : Family) :
    Catalog.builtinRegistry.traits.get? f.tag = some ⟨f.shape, .matrix⟩ := by
  cases f <;> rfl

theorem Family.find (f : Family) :
    Catalog.builtinRegistry.find (.tag f.tag) = .ok (f.tag, ⟨f.shape, .matrix⟩) := by
  cases f <;> rfl

/-- A class that computes like its encoding. -/
def ConcreteClass.Regular (c : ConcreteClass) : Prop := c.tag = some c.family.tag

/-- A regular class has the tag of its family. -/
theorem ConcreteClass.Regular.key_eq {c : ConcreteClass} (hc : c.Regular) :
    c.key = .tag c.family.tag := by
  rw [key, show c.tag = some c.family.tag from hc]
  rfl

/-- A link takes data of one shape and gives data of another. -/
inductive Link.Takes : Link Formula → List Nat → List Nat → Prop
  | copy (a : List Nat) : Takes .copy a a
  | rule {f : Formula} {a b : List Nat} (h : f.signature? = some (a, b)) : Takes (.rule f) a b

/-- A chain of links, of which each takes what the one before it gives. -/
inductive ChainTakes : List (Link Formula) → List Nat → List Nat → Prop
  | one {l : Link Formula} {a b : List Nat} (h : l.Takes a b) : ChainTakes [l] a b
  | cons {l : Link Formula} {ls : List (Link Formula)} {a b c : List Nat} (h : l.Takes a b)
      (hs : ChainTakes ls b c) : ChainTakes (l :: ls) a c

/-- There is a chain between any two encodings, and its links fit. -/
theorem Family.resolve (f g : Family) : ∃ route,
    Catalog.builtinRegistry.resolve (.tag f.tag) (.tag g.tag) = .ok route ∧
      ChainTakes route.links f.shape g.shape := by
  cases f <;> cases g
  -- a copy, a direct rule or one leg, or both legs
  all_goals first
    | exact ⟨_, rfl, .one (.copy _)⟩
    | exact ⟨_, rfl, .one (.rule rfl)⟩
    | exact ⟨_, rfl, .cons (.rule rfl) (.one (.rule rfl))⟩

/-- The link to the rotation matrix fits. -/
theorem Family.canonicalLink (f : Family) : ∃ l,
    Catalog.builtinRegistry.canonicalLink .toCanonical (.tag f.tag) = .ok l ∧
      l.Takes f.shape [3, 3] := by
  cases f
  case matrix => exact ⟨_, rfl, .copy _⟩
  all_goals exact ⟨_, rfl, .rule rfl⟩

/-! ## Skew parts -/

/-- The skew part of data, as the check asks for it. -/
def skewPartOf {α : Type} : Transform α := fun _ m =>
  Formula.shaped Grid.toMat3? (fun m => (RotationVector.skewPart m).toGrid) m

/-- The skew part of a matrix has its shape. -/
theorem skewPartOf_takes {α : Type} : Transform.Takes (@skewPartOf α) [3, 3] [3, 3] :=
  fun _ _ hm => Formula.shaped_of_shape Grid.toMat3?_of_shape (fun _ => by rfl) hm

variable {α : Type} [Ground α]

/-! ## Data in the course of a computation -/

/-- Data of a shape that is no object yet. -/
structure Held.IsNew (a : List Nat) (h : Held α) : Prop where
  fits : h.datum.Fits a
  home : h.home = none

theorem Held.isNew_copy {a : List Nat} {h : Held α} (hh : h.datum.Fits a) : h.copy.IsNew a :=
  ⟨hh, rfl⟩

theorem Held.isNew_ofNumbers (t : ScalarType) (m : Grid α) :
    (Held.fresh (.ofNumbers t m)).IsNew m.shape :=
  ⟨Datum.fits_ofNumbers t m, rfl⟩

section Transforms

variable {E : Fault → Prop} {a b : List Nat} {d e : Datum α}

/-- Data of the right shape is transformed. -/
theorem Datum.apply_fits {f : Transform α} (hf : f.Takes a b) (hd : d.shape = a) :
    Meets E (Datum.Fits b) (d.apply f) := by
  obtain ⟨d', hd', hshape⟩ := apply_of_takes hf hd
  exact .of_eq_ok hd' ⟨hshape, legible_of_apply hd'⟩

/-- Two pieces of data of the right shape are transformed. -/
theorem Datum.apply₂_fits {f : Transform₂ α} (hf : f.Takes a b) (hd : d.shape = a)
    (he : e.shape = a) : Meets E (Datum.Fits b) (apply₂ f d e) := by
  obtain ⟨d', hd', hshape⟩ := apply₂_of_takes hf hd he
  exact .of_eq_ok hd' ⟨hshape, legible_of_apply₂ hd'⟩

end Transforms

/-! ## Skew parts pass the check -/

/-- Settings under which a skew part counts as skew-symmetric. -/
def Settings.Lenient (s : Settings α) : Prop :=
  s.checks = false ∨ Ground.le (lit 0) s.validityTol = true

/-- The fault that is left for data of the right shape. -/
def Settings.Refuses (s : Settings α) (e : Fault) : Prop := e = .notSkew ∧ ¬ s.Lenient

/-- The entries of a matrix of nine, row by row. -/
theorem Grid.toList_toGrid {β : Type} (m : Mat3 β) : m.toGrid.toList = m.toList := rfl

/-- The numbers of a skew part are skew-symmetric, also where they are read off constant
expressions. -/
theorem isSkew_of_skewPartOf [LawfulDifferences α] {tol : α} (htol : Ground.le (lit 0) tol = true)
    {d d' : Datum α} (hd : d.shape = [3, 3]) (hd' : d.apply skewPartOf = .ok d') {m : Grid α}
    (hm : d'.numbers? = some m) : m.toMat3?.all (Mat3.isSkew tol) = true := by
  cases d with
  | numeric n =>
    obtain ⟨x, hx⟩ := Grid.toMat3?_of_shape (m := n) hd
    simp only [Datum.apply, skewPartOf, Formula.shaped, hx, Except.map] at hd'
    cases hd'
    cases hm
    exact Mat3.isSkew_skewPart htol x
  | symbolic s =>
    obtain ⟨x, hx⟩ := Grid.toMat3?_of_shape (m := s.slots) hd
    simp only [Datum.apply, skewPartOf, Formula.shaped, hx, Except.map] at hd'
    cases hd'
    -- the entries of the skew part read as differences of what the entries of the matrix read as
    let n : Mat3 (Reading α) :=
      x.map (Expr.eval Reading.ofConstant (Symbolic.lookup s.reading))
    have hreading : (Symbolic.derived (RotationVector.skewPart x).toGrid s).reading =
        (RotationVector.skewPart n).toGrid := rfl
    simp only [Datum.numbers?, Symbolic.numbers?, hreading] at hm
    split at hm
    · next hall =>
      cases hm
      rw [Grid.all, Grid.toList_toGrid] at hall
      exact Mat3.isSkew_constants_skewPart htol n (List.all_eq_true.1 hall)
    · cases hm

namespace Settings

variable {s : Settings α} {a b : List Nat} {h k : Held α}

/-- Settings with a tolerance of at least zero refuse nothing for its symmetry. -/
theorem Lenient.not_refuses (hs : s.Lenient) (e : Fault) : ¬ s.Refuses e := fun h => h.2 hs

/-- What is checked of a matrix before its rotation vector is taken, with checks on. -/
theorem checkSkew_of_checked (hs : s.checks = true) (d : Datum α) :
    s.checkSkew .rotationVectorOfMatrix d = (do
      match (← d.apply skewPartOf).numbers? with
      | some m => if m.toMat3?.all (Mat3.isSkew s.validityTol) then .ok () else .error .notSkew
      | none => .ok ()) := by
  simp only [checkSkew, hs, Formula.skewInput?]
  rfl

variable [LawfulDifferences α]

/-- The skew part of a matrix passes, unless the tolerance is negative. -/
theorem checkSkew_skewPart {d : Datum α} (hd : d.shape = [3, 3]) :
    Meets s.Refuses (fun _ => True) (s.checkSkew .rotationVectorOfMatrix d) := by
  obtain ⟨d', hd', -⟩ := Datum.apply_of_takes skewPartOf_takes hd
  cases hchecks : s.checks with
  | false => exact .of_eq_ok (checkSkew_of_unchecked hchecks _ d) trivial
  | true =>
    rw [checkSkew_of_checked hchecks, hd']
    show Meets _ _ (match d'.numbers? with
      | some m => if m.toMat3?.all (Mat3.isSkew s.validityTol) then .ok () else .error .notSkew
      | none => .ok ())
    cases hm : d'.numbers? with
    | none => exact .ok trivial
    | some m =>
      -- a skew part that is refused needs a negative tolerance
      by_cases hskew : m.toMat3?.all (Mat3.isSkew s.validityTol) = true
      · simp only [hskew, if_true]
        exact .ok trivial
      · simp only [hskew]
        refine .error ⟨rfl, ?_⟩
        rintro (hoff | htol)
        · rw [hchecks] at hoff
          cases hoff
        · exact hskew (isSkew_of_skewPartOf htol hd hd' hm)

/-! ## Conversions -/

/-- No formula between encodings refuses data of the right shape, unless the tolerance is negative.
-/
theorem checkSkew_of_signature {f : Formula} (hf : f.signature? = some (a, b)) {d : Datum α}
    (hd : d.shape = a) : Meets s.Refuses (fun _ => True) (s.checkSkew f d) := by
  cases f
  case rotationVectorOfMatrix =>
    cases hf
    exact checkSkew_skewPart hd
  case vee => cases hf
  all_goals exact .of_eq_ok (checkSkew_of_no_input s rfl d) trivial

/-- A formula on an encoding makes new data of its encoding. -/
theorem applyFormula_new {f : Formula} (hf : f.signature? = some (a, b)) (hh : h.datum.Fits a) :
    Meets s.Refuses (Held.IsNew b) (s.applyFormula f h) := by
  have hitself : f ≠ .itself := by rintro rfl; cases hf
  have hcopy : f ≠ .copy := by rintro rfl; cases hf
  rw [applyFormula_eq hitself hcopy]
  exact .bind (Datum.apply_fits (Formula.transform_takes hf s.eps) hh.shape) fun d hd =>
    .bind (checkSkew_of_signature hf hh.shape) fun _ _ => .ok ⟨hd, rfl⟩

/-- A link answers new data of the shape that it leads to. -/
theorem applyLink_new {l : Link Formula} (hl : l.Takes a b) (hh : h.datum.Fits a) :
    Meets s.Refuses (Held.IsNew b) (s.applyLink h l) := by
  cases hl with
  | copy => exact .ok (Held.isNew_copy hh)
  | rule hf => exact applyFormula_new hf hh

/-- A chain answers new data of the shape that it leads to. -/
theorem applyRoute_new {r : Route Formula} (hr : ChainTakes r.links a b) (hh : h.datum.Fits a) :
    Meets s.Refuses (Held.IsNew b) (s.applyRoute r h) := by
  unfold applyRoute
  generalize r.links = ls at hr
  -- each link takes what the one before it makes, so the data has to be arbitrary
  induction hr generalizing h with
  | one hl =>
    simp only [List.foldlM_cons, List.foldlM_nil]
    exact .bind (applyLink_new hl hh) fun k hk => .ok hk
  | cons hl _ ih =>
    simp only [List.foldlM_cons]
    exact .bind (applyLink_new hl hh) fun k hk => ih hk.fits

end Settings

end Attitude
