import Attitude.Proofs.Elements.Measures
import Attitude.Proofs.Session.Acceptance

/-!
# Checks of doubles in a session

What a session on doubles accepts with checks on, after any run that keeps the tables of conversions
(`validity_of_run`). Data of numbers is accepted for an element exactly if the magnitudes by which
its matrix misses a rotation are within the tolerance or contain something that is no number, and a
matrix is turned into a vector exactly if the same holds of its symmetric part. So a quaternion that
is so long that its matrix overflows is accepted (`accepted_of_overflow`).
-/

namespace Attitude

open Asking

namespace Session

variable {α : Type} [Ground α] {s : Session α} {x : Argument α} {h : Held α}

/-- The vector of a matrix is answered as the formula answers it. -/
theorem answer_of_vee (hx : s.world.matrixOf x = .ok h) (d : String) : (s.step (.vee d x)).1 =
    (s.world.settings.applyFormula .vee h).map fun k => .matrix k.datum.shown := by
  have hplan : (s.world.plan (.vee d x)).run s.router =
      ((s.world.settings.applyFormula .vee h).map (.newMatrix d), s.router) := by
    simp only [World.plan, run_bind, run_lift, hx]
    cases s.world.settings.applyFormula .vee h <;> rfl
  unfold step
  rw [hplan]
  cases s.world.settings.applyFormula .vee h <;> rfl

/-- What a check accepts is answered, and what it does not accept is refused. -/
theorem answered_or_refused {β : Type} {c : Prop} [Decidable c] {y : Except Fault β} {b : β}
    {e : Fault} (h : y = if c then .ok b else .error e) :
    (y = .ok b ∨ y = .error e) ∧ (y = .ok b ↔ c) := by
  by_cases hc : c
  · rw [if_pos hc] at h
    exact ⟨.inl h, iff_of_true h hc⟩
  · rw [if_neg hc] at h
    exact ⟨.inr h, iff_of_false (fun hb => nomatch hb.symm.trans h) hc⟩

section Checked

variable {s : Session Float} (hs : s.Regular) (hchecks : s.world.settings.checks = true)
  (htol : Ground.isNumber s.world.settings.validityTol = true)
include hs hchecks htol

/-- Numbers of the right shape are taken exactly if the measures of their matrix pass. -/
theorem Regular.taken_iff_passes {a : String} {x : Argument Float} {b : Subject Float}
    {h : Held Float} (hb : s.world.store.named a = .ok b) (hx : s.world.matrixOf x = .ok h)
    (hshape : h.datum.shape = b.cls.family.shape) (hn : h.datum.numbers?.isSome) :
    let answer := (s.step (.setData a x)).1
    let taken := Except.ok (.element b.cls.name h.datum.shown)
    ∃ (k : Held Float) (R : Mat3 Float),
      s.world.context.toCanonical h b.cls.key = .ok k ∧ k.datum.numbers? = some R.toGrid ∧
      (∀ M : Mat3 Float, b.cls.family = .matrix → h.datum = .numeric M.toGrid → R = M) ∧
      (∀ q : Quaternion Float, b.cls.family = .quaternion → h.datum = .numeric q.toGrid →
        R = q.toMat3) ∧
      (answer = taken ∨ answer = .error (.notRotation b.cls.name)) ∧
      (answer = taken ↔ Double.Passes s.world.settings.validityTol R.orthogonalDefects ∧
        Double.Passes s.world.settings.validityTol [FieldOps.abs (R.det - lit 1)]) := by
  intro answer taken
  have hreg : s.world.context.registry = Catalog.builtinRegistry := hs.world.catalog.registry
  have hc : b.cls.Regular := (hs.world.store.named hb).cls
  have hfits : h.datum.Fits b.cls.family.shape := ⟨hshape, hs.world.matrixOf hx⟩
  obtain ⟨k, R, hk, hR, hcheck⟩ := Context.checkRotation_eq_ite hreg hc hfits hchecks hn
  -- the matrix that is checked is the one that the conversion answers
  have hsame {S : Mat3 Float} (hS : ∃ l, s.world.context.toCanonical h b.cls.key = .ok l ∧
      l.datum.numbers? = some S.toGrid) : R = S := by
    obtain ⟨l, hl, hS⟩ := hS
    rw [← Except.ok.inj (hk.symm.trans hl)] at hS
    exact Mat3.toGrid_injective (Option.some.inj (hR.symm.trans hS))
  have hanswer : answer = if R.isRotation s.world.settings.validityTol then taken
      else .error (.notRotation b.cls.name) := by
    rw [show answer = _ from answer_of_setData hb hx, Context.takeData_eq hreg hc hshape, hcheck,
      apply_ite (Except.map _), apply_ite (Except.map _)]
    rfl
  obtain ⟨hcases, htaken⟩ := answered_or_refused hanswer
  refine ⟨k, R, hk, hR, fun M hf hM => ?_, fun q hf hq => ?_, hcases,
    htaken.trans (R.isRotation_iff_passes htol)⟩
  · exact hsame (Context.toCanonical_of_matrix hreg hc hf hM)
  · exact hsame (Context.toCanonical_of_quaternion hreg hc hf hq)

/-- A matrix of numbers has a vector exactly if the measures of its symmetric part pass. -/
theorem Regular.vee_iff_passes {x : Argument Float} {h : Held Float} {X : Mat3 Float}
    (hx : s.world.matrixOf x = .ok h) (hX : h.datum.numbers? = some X.toGrid) (d : String) :
    let answer := (s.step (.vee d x)).1
    ∃ v : Shown Float, (answer = .ok (.matrix v) ∨ answer = .error .notSkew) ∧
      (answer = .ok (.matrix v) ↔
        Double.Passes s.world.settings.validityTol (X.skewDefect.map FieldOps.abs).toList) := by
  intro answer
  obtain ⟨k, hk⟩ := Settings.applyFormula_vee_eq_ite hchecks (hs.world.matrixOf hx) hX
  have hanswer : answer = if X.isSkew s.world.settings.validityTol
      then .ok (.matrix k.datum.shown) else .error .notSkew := by
    rw [show answer = _ from answer_of_vee hx d, hk, apply_ite (Except.map _)]
    rfl
  obtain ⟨hcases, htaken⟩ := answered_or_refused hanswer
  exact ⟨_, hcases, htaken.trans (X.isSkew_iff_passes htol)⟩

end Checked

/-- **Validity.** After a run that keeps the tables, with checks on and a tolerance that is a number
and not negative, numbers of the right shape are taken as the data of an element or refused as no
rotation. They are taken exactly if the magnitudes by which the product of the transpose of their
matrix with the matrix misses the identity are within the tolerance, or one of them is no number,
and if the same holds of the determinant. The matrix is the data itself for matrices and comes from
the formula for quaternions. In the same way a matrix of numbers has a vector exactly if the
magnitudes of the sum of the matrix and its transpose are within the tolerance, or one of them is no
number. -/
theorem validity_of_run (settings : Settings Float) (xs : List (Step Float))
    (hxs : ∀ x ∈ xs, x.KeepsTables) :
    let s := ((⟨{ settings := settings }, {}⟩ : Session Float).run xs).2
    let tol := s.world.settings.validityTol
    s.world.settings.checks = true → Ground.le (lit 0) tol = true →
    (∀ (a : String) (x : Argument Float) (b : Subject Float) (h : Held Float),
      s.world.store.named a = .ok b → s.world.matrixOf x = .ok h →
      h.datum.shape = b.cls.family.shape → h.datum.numbers?.isSome →
      let answer := (s.step (.setData a x)).1
      let taken := Except.ok (.element b.cls.name h.datum.shown)
      ∃ (k : Held Float) (R : Mat3 Float),
        s.world.context.toCanonical h b.cls.key = .ok k ∧ k.datum.numbers? = some R.toGrid ∧
        (∀ M : Mat3 Float, b.cls.family = .matrix → h.datum = .numeric M.toGrid → R = M) ∧
        (∀ q : Quaternion Float, b.cls.family = .quaternion → h.datum = .numeric q.toGrid →
          R = q.toMat3) ∧
        (answer = taken ∨ answer = .error (.notRotation b.cls.name)) ∧
        (answer = taken ↔ Double.Passes tol R.orthogonalDefects ∧
          Double.Passes tol [FieldOps.abs (R.det - lit 1)])) ∧
    ∀ (d : String) (x : Argument Float) (h : Held Float) (X : Mat3 Float),
      s.world.matrixOf x = .ok h → h.datum.numbers? = some X.toGrid →
      let answer := (s.step (.vee d x)).1
      ∃ v : Shown Float, (answer = .ok (.matrix v) ∨ answer = .error .notSkew) ∧
        (answer = .ok (.matrix v) ↔
          Double.Passes tol (X.skewDefect.map FieldOps.abs).toList) := by
  intro s tol hchecks htol
  have hs : s.Regular := regular_run settings xs hxs
  -- a tolerance that zero can be compared with is a number
  have htol : Ground.isNumber tol = true := Double.isNumber_of_le htol
  exact ⟨fun a x b h hb hx hshape hn => hs.taken_iff_passes hchecks htol hb hx hshape hn,
    fun d x h X hx hX => hs.vee_iff_passes hchecks htol hx hX d⟩

/-- Checks are switched on, and there is an element to give a quaternion to. -/
def strictRun : List (Step Float) := [.configure (.checks true), .new "a" "Quat" none]

/-- A quaternion of finite entries whose squares are infinite. -/
def overlong : Quaternion Float := ⟨lit (10 ^ 200), lit 0, lit (10 ^ 200), lit 0⟩

/-- A matrix that is infinite on both sides of the diagonal. -/
def unbounded : Mat3 Float :=
  ⟨lit 0, Double.infinity, lit 0, -Double.infinity, lit 0, lit 0, lit 0, lit 0, lit 0⟩

theorem keepsTables_strictRun : ∀ x ∈ strictRun, x.KeepsTables := by
  simp only [strictRun, List.forall_mem_cons]
  exact ⟨trivial, trivial, List.forall_mem_nil _⟩

set_option maxRecDepth 10000 in
/-- The quaternion of infinite length is taken: its defect is a nan, which exceeds nothing. -/
theorem taken_after_strictRun :
    ((initial.run strictRun).2.step (.setData "a" (.data (.ok overlong.toGrid)))).1 =
      .ok (.element "Quat" (Datum.numeric overlong.toGrid).shown) := rfl

set_option maxRecDepth 10000 in
/-- The infinite matrix is taken for skew-symmetric: the sum across the diagonal is a nan. -/
theorem vector_after_strictRun :
    ((initial.run strictRun).2.step (.vee "v" (.data (.ok unbounded.toGrid)))).1 =
      .ok (.matrix (Datum.numeric unbounded.vee.toGrid).shown) := rfl

/-- Both are accepted, so each has a magnitude that is no number. -/
theorem validity_after_strictRun :
    (∀ x ∈ strictRun, x.KeepsTables) ∧
      let s := (initial.run strictRun).2
      let tol := s.world.settings.validityTol
      s.world.settings.checks = true ∧ Ground.le (lit 0) tol = true ∧
      Double.Passes tol overlong.toMat3.orthogonalDefects ∧
      Double.Passes tol [FieldOps.abs (overlong.toMat3.det - lit 1)] ∧
      Double.Passes tol (unbounded.skewDefect.map FieldOps.abs).toList := by
  have htol : Ground.le (lit 0) (initial.run strictRun).2.world.settings.validityTol = true := rfl
  obtain ⟨hdata, hvectors⟩ := validity_of_run .initial strictRun keepsTables_strictRun rfl htol
  obtain ⟨k, R, -, -, -, hR, -, htaken⟩ :=
    hdata "a" (.data (.ok overlong.toGrid)) _ _ rfl rfl rfl rfl
  obtain rfl : R = overlong.toMat3 := hR overlong rfl rfl
  -- the data was taken, so it passes both comparisons, whatever it is
  obtain ⟨hproduct, hdeterminant⟩ := htaken.1 taken_after_strictRun
  obtain ⟨v, hv | hv, hvector⟩ :=
    hvectors "v" (.data (.ok unbounded.toGrid)) _ unbounded rfl rfl
  · exact ⟨keepsTables_strictRun, rfl, htol, hproduct, hdeterminant, hvector.1 hv⟩
  · cases hv.symm.trans vector_after_strictRun

set_option maxRecDepth 10000 in
/-- A quaternion of finite entries is accepted although not all magnitudes of its matrix are within
the tolerance, and a matrix has a vector although the same holds of its symmetric part. -/
theorem accepted_of_overflow :
    let s := (initial.run strictRun).2
    let tol := s.world.settings.validityTol
    Ground.le (lit 0) tol = true ∧
    ([overlong.w, overlong.x, overlong.y, overlong.z].all (Ground.lt · Double.infinity)) = true ∧
    (s.step (.setData "a" (.data (.ok overlong.toGrid)))).1 =
      .ok (.element "Quat" (Datum.numeric overlong.toGrid).shown) ∧
    overlong.toMat3.orthogonalDefects.all (Ground.le · tol) = false ∧
    Ground.le (FieldOps.abs (overlong.toMat3.det - lit 1)) tol = false ∧
    (s.step (.vee "v" (.data (.ok unbounded.toGrid)))).1 =
      .ok (.matrix (Datum.numeric unbounded.vee.toGrid).shown) ∧
    (unbounded.skewDefect.map FieldOps.abs).toList.all (Ground.le · tol) = false :=
  ⟨rfl, rfl, taken_after_strictRun, rfl, rfl, vector_after_strictRun, rfl⟩

end Session

end Attitude
