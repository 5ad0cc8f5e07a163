import Attitude.Draw
import Attitude.Proofs.Session.Outcome
import Attitude.Proofs.Symbolic.Value

/-!
# Operations respect the values of data

Two matrices agree if they have the same value, one under an assignment `σ` and one under an
assignment `τ`, and the same understood zeros. Every operation of elements that does not ask for
the numbers of its data takes matrices that agree to the same outcome: the same fault, or matrices
that agree. Only checks of data ask for numbers, so they have to be off.

The statements come in the order of the definitions, and each one goes through its definition part
by part.
-/

namespace Attitude

variable {α : Type} [Ground α] {σ τ : String → α}

/-! ## Matrices that agree -/

/-- The same value and the same understood zeros. -/
structure Sheet.Agree (σ τ : String → α) (x y : Sheet α) : Prop where
  value : x.datum.value σ = y.datum.value τ
  understood : x.understood = y.understood

/-- The same value and the same understood zeros, in the same object if in any. -/
structure Held.Agree (σ τ : String → α) (h k : Held α) : Prop where
  sheet : Sheet.Agree σ τ h.sheet k.sheet
  home : h.home = k.home

/-- The same class, and data that agrees. -/
inductive Subject.Agree (σ τ : String → α) : Subject α → Subject α → Prop
  | of (c : ConcreteClass) {h k : Held α} (hk : Held.Agree σ τ h k) : Agree σ τ ⟨c, h⟩ ⟨c, k⟩

theorem Subject.Agree.cls {a b : Subject α} (h : Agree σ τ a b) : a.cls = b.cls := by
  cases h
  rfl

/-- Elements that agree have data that agrees. -/
theorem Subject.Agree.held {a b : Subject α} (h : Agree σ τ a b) :
    Held.Agree σ τ a.held b.held := by
  cases h with
  | of c hk => exact hk

/-- Outcomes of the same value. -/
abbrev Datum.SameValue (σ τ : String → α) :
    Except Fault (Datum α) → Except Fault (Datum α) → Prop :=
  SameOutcome fun d e => d.value σ = e.value τ

/-- Data of equal value has equally many rows. -/
theorem Datum.rows_eq {d e : Datum α} (h : d.value σ = e.value τ) : d.rows = e.rows := by
  rw [← d.rows_value σ, h, e.rows_value τ]

/-- Data of equal value has equally many columns. -/
theorem Datum.cols_eq {d e : Datum α} (h : d.value σ = e.value τ) : d.cols = e.cols := by
  rw [← d.cols_value σ, h, e.cols_value τ]

theorem Datum.shape_eq {d e : Datum α} (h : d.value σ = e.value τ) : d.shape = e.shape := by
  rw [shape, shape, rows_eq h, cols_eq h]

/-- A natural transform fails alike on data of equal value, and else has equal values. -/
theorem Datum.apply_same {f : Transform α} (hf : f.Natural) {d e : Datum α}
    (h : d.value σ = e.value τ) : SameValue σ τ (d.apply f) (e.apply f) := by
  refine .of_map_eq ?_
  rw [value_apply σ hf, value_apply τ hf, h]

/-- The same for a natural transform of two matrices. -/
theorem Datum.apply₂_same {f : Transform₂ α} (hf : f.Natural) {a b a' b' : Datum α}
    (ha : a.value σ = a'.value τ) (hb : b.value σ = b'.value τ) :
    SameValue σ τ (apply₂ f a b) (apply₂ f a' b') := by
  refine .of_map_eq ?_
  rw [value_apply₂ σ hf, value_apply₂ τ hf, ha, hb]

theorem Held.Agree.fresh {d e : Datum α} (h : d.value σ = e.value τ) :
    Held.Agree σ τ (.fresh d) (.fresh e) :=
  ⟨⟨h, rfl⟩, rfl⟩

theorem Held.Agree.copy {h k : Held α} (hk : Held.Agree σ τ h k) :
    Held.Agree σ τ h.copy k.copy :=
  ⟨hk.sheet, rfl⟩

theorem Held.Agree.value {h k : Held α} (hk : Held.Agree σ τ h k) :
    h.datum.value σ = k.datum.value τ :=
  hk.sheet.value

/-! ## Operations of matrices -/

namespace Sheet

variable {x y x' y' : Sheet α}

theorem transpose_same (h : Agree σ τ x y) :
    SameOutcome (Agree σ τ) x.transpose y.transpose := by
  refine .bind (Datum.apply_same natural_transposed h.value) fun d e hd => .ok ⟨hd, ?_⟩
  rw [h.understood]

theorem negate_same (h : Agree σ τ x y) : SameOutcome (Agree σ τ) x.negate y.negate :=
  .bind (Datum.apply_same natural_negated h.value) fun _ _ hd => .ok ⟨hd, h.understood⟩

theorem product_same (h : Agree σ τ x y) (h' : Agree σ τ x' y') :
    SameOutcome (Agree σ τ) (x.product x') (y.product y') := by
  refine .bind (Datum.apply₂_same natural_multiplied h.value h'.value) fun d e hd => .ok ⟨hd, ?_⟩
  simp only [understoodProduct, Datum.shape_eq h.value, Datum.shape_eq h'.value,
    Datum.rows_eq h.value, Datum.cols_eq h.value, Datum.cols_eq h'.value, h.understood,
    h'.understood]

/-- Entrywise products agree, entries that are kept at zero included. -/
theorem entrywiseProduct_same (h : Agree σ τ x y) (h' : Agree σ τ x' y') :
    SameOutcome (Agree σ τ) (x.entrywiseProduct x') (y.entrywiseProduct y') := by
  refine .bind (Datum.apply₂_same natural_entrywise_mul h.value h'.value) fun d e hd => ?_
  have hzeros : x.understoodEntrywise x' (d.rows, d.cols) =
      y.understoodEntrywise y' (e.rows, e.cols) := by
    simp only [understoodEntrywise, Datum.rows_eq hd, Datum.cols_eq hd, Datum.rows_eq h.value,
      Datum.cols_eq h.value, Datum.rows_eq h'.value, Datum.cols_eq h'.value, h.understood,
      h'.understood]
  simp only [hzeros]
  split
  · exact .ok ⟨hd, rfl⟩
  · exact .bind (Datum.apply_same (natural_cleared _) hd) fun _ _ hd' => .ok ⟨hd', rfl⟩

theorem setEntry_same (h : Agree σ τ x y) (p : Position) (a : α) :
    SameOutcome (Agree σ τ) (x.setEntry p a) (y.setEntry p a) := by
  have hloc : p.locate x.datum.rows x.datum.cols = p.locate y.datum.rows y.datum.cols := by
    rw [Datum.rows_eq h.value, Datum.cols_eq h.value]
  unfold setEntry
  rw [hloc]
  refine .bind_same fun ⟨i, j⟩ => ?_
  refine .bind (Datum.apply_same (natural_replaced i j a) h.value) fun d e hd => .ok ⟨hd, ?_⟩
  rw [h.understood]

/-- Labels do not matter to the agreement. -/
theorem Agree.stamp (h : Agree σ τ x y) (l l' : Nat) : Agree σ τ (x.stamp l) (y.stamp l') where
  value := by
    show (x.datum.stamp l).value σ = (y.datum.stamp l').value τ
    rw [Datum.value_stamp, Datum.value_stamp, h.value]
  understood := h.understood

end Sheet

/-! ## Formulas and conversions -/

namespace Settings

variable {s : Settings α} {h k h' k' : Held α}

/-- Without checks nothing is refused. -/
theorem checkSkew_of_unchecked (hs : s.checks = false) (f : Formula) (d : Datum α) :
    s.checkSkew f d = .ok () := by
  simp only [checkSkew, hs]

/-- A formula that needs no symmetry is not refused. -/
theorem checkSkew_of_no_input (s : Settings α) {f : Formula}
    (hf : (f.skewInput? : Option (Transform α)) = none) (d : Datum α) :
    s.checkSkew f d = .ok () := by
  simp only [checkSkew, hf]
  cases s.checks <;> rfl

/-- A formula that is no copy makes a new matrix. -/
theorem applyFormula_eq {f : Formula} (hitself : f ≠ .itself) (hcopy : f ≠ .copy)
    (s : Settings α) (h : Held α) :
    s.applyFormula f h = (do
      let d ← h.datum.apply (f.transform s.eps)
      s.checkSkew f h.datum
      pure ⟨⟨d, f.understood h.sheet.understood⟩, none⟩) := by
  cases f with
  | itself => exact absurd rfl hitself
  | copy => exact absurd rfl hcopy
  | _ => rfl

/-- What a formula answers has the data of its argument, or the data that the transform makes. -/
theorem datum_of_applyFormula {f : Formula} (hk : s.applyFormula f h = .ok k) :
    ((f = .itself ∨ f = .copy) ∧ k.datum = h.datum) ∨
      h.datum.apply (f.transform s.eps) = .ok k.datum := by
  by_cases hitself : f = .itself
  · subst hitself
    cases hk
    exact .inl ⟨.inl rfl, rfl⟩
  by_cases hcopy : f = .copy
  · subst hcopy
    cases hk
    exact .inl ⟨.inr rfl, rfl⟩
  rw [applyFormula_eq hitself hcopy] at hk
  obtain ⟨d, hd, hk⟩ := exists_of_bind_eq_ok hk
  obtain ⟨_, -, hk⟩ := exists_of_bind_eq_ok hk
  cases hk
  exact .inr hd

/-- A formula without a check of its own makes numbers of numbers. -/
theorem applyFormula_numeric (s : Settings α) {f : Formula} (hitself : f ≠ .itself)
    (hcopy : f ≠ .copy) (hinput : (f.skewInput? : Option (Transform α)) = none) {m n : Grid α}
    (hm : h.datum = .numeric m) (hn : f.apply s.eps [m] = .ok n) :
    ∃ k, s.applyFormula f h = .ok k ∧ k.home = none ∧ k.datum = .numeric n := by
  have hdatum : h.datum.apply (f.transform s.eps) = .ok (.numeric n) := by
    rw [hm]
    exact congrArg (Except.map Datum.numeric) hn
  rw [applyFormula_eq hitself hcopy, hdatum, checkSkew_of_no_input s hinput]
  exact ⟨_, rfl, rfl, rfl⟩

/-- **Formulas.** A formula fails alike on data that agrees, and else answers data that agrees. -/
theorem applyFormula_same (hs : s.checks = false) (f : Formula) (hk : Held.Agree σ τ h k) :
    SameOutcome (Held.Agree σ τ) (s.applyFormula f h) (s.applyFormula f k) := by
  by_cases hitself : f = .itself
  · subst hitself
    exact .ok hk
  by_cases hcopy : f = .copy
  · subst hcopy
    exact .ok hk.copy
  rw [applyFormula_eq hitself hcopy, applyFormula_eq hitself hcopy, checkSkew_of_unchecked hs,
    checkSkew_of_unchecked hs, hk.sheet.understood]
  exact .bind (Datum.apply_same (natural_transform f s.eps) hk.value) fun d e hd =>
    .ok ⟨⟨hd, rfl⟩, rfl⟩

/-- The same for a formula of two arguments. -/
theorem applyFormula₂_same (f : Formula) (hk : Held.Agree σ τ h k) (hk' : Held.Agree σ τ h' k') :
    SameOutcome (Held.Agree σ τ) (s.applyFormula₂ f h h') (s.applyFormula₂ f k k') :=
  .map (Datum.apply₂_same (natural_transform₂ f s.eps) hk.value hk'.value) fun _ _ => .fresh

theorem applyLink_same (hs : s.checks = false) (l : Link Formula) (hk : Held.Agree σ τ h k) :
    SameOutcome (Held.Agree σ τ) (s.applyLink h l) (s.applyLink k l) := by
  cases l with
  | copy => exact .ok hk.copy
  | rule f => exact applyFormula_same hs f hk

/-- Chains of links on data that agrees. -/
theorem applyRoute_same (hs : s.checks = false) (r : Route Formula) (hk : Held.Agree σ τ h k) :
    SameOutcome (Held.Agree σ τ) (s.applyRoute r h) (s.applyRoute r k) :=
  .foldlM (fun _ _ l => applyLink_same hs l) r.links hk

end Settings

/-! ## Operations of elements -/

namespace Context

variable {ctx : Context α} {h k : Held α} {a b a' b' : Subject α}

/-- **Conversions.** The same route is asked for, and it is applied to data that agrees. -/
theorem convert_same (hs : ctx.settings.checks = false) (hk : Held.Agree σ τ h k)
    (src dst : Key) :
    Asking.Same (Held.Agree σ τ) (ctx.convert h src dst) (ctx.convert k src dst) :=
  .bind (.refl _) fun r _ hr => hr ▸ .lift (Settings.applyRoute_same hs r hk)

theorem toCanonical_same (hs : ctx.settings.checks = false) (hk : Held.Agree σ τ h k) (x : Key) :
    SameOutcome (Held.Agree σ τ) (ctx.toCanonical h x) (ctx.toCanonical k x) :=
  .bind_same fun l => Settings.applyLink_same hs l hk

/-- The way from the canonical encoding. -/
theorem fromCanonical_same (hs : ctx.settings.checks = false) (hk : Held.Agree σ τ h k)
    (x : Key) : SameOutcome (Held.Agree σ τ) (ctx.fromCanonical h x) (ctx.fromCanonical k x) :=
  .bind_same fun l => Settings.applyLink_same hs l hk

/-- Without checks any data is taken. -/
theorem checkRotation_of_unchecked (hs : ctx.settings.checks = false) (c : ConcreteClass)
    (h : Held α) : ctx.checkRotation c h = .ok () := by
  simp only [checkRotation, hs, Bool.false_eq_true, if_false]

/-- Data that agrees is taken or refused alike. -/
theorem takeData_same (hs : ctx.settings.checks = false) (c : ConcreteClass)
    (hk : Held.Agree σ τ h k) :
    SameOutcome (Held.Agree σ τ) (ctx.takeData c h) (ctx.takeData c k) := by
  unfold takeData
  simp only [checkRotation_of_unchecked hs, show h.datum.shape = k.datum.shape from
    Datum.shape_eq hk.value]
  refine .bind_same fun ⟨_, traits⟩ => ?_
  by_cases hshape : k.datum.shape = traits.shape
  · simp only [hshape, ne_eq, not_true_eq_false, if_false]
    exact .ok hk.copy
  · simp only [hshape, ne_eq, not_false_eq_true, if_true]
    exact .error _

/-- Matrices that agree are taken or refused alike. -/
theorem takeMatrix_same (hs : ctx.settings.checks = false) (c : ConcreteClass)
    (hk : Held.Agree σ τ h k) :
    SameOutcome (Held.Agree σ τ) (ctx.takeMatrix c h) (ctx.takeMatrix c k) := by
  unfold takeMatrix
  simp only [show h.datum.shape = k.datum.shape from Datum.shape_eq hk.value]
  by_cases hshape : k.datum.shape = [3, 3]
  · simp only [hshape, ne_eq, not_true_eq_false, if_false]
    exact .bind (fromCanonical_same hs hk c.key) fun _ _ => takeData_same hs c
  · simp only [hshape, ne_eq, not_false_eq_true, if_true]
    exact .error _

/-- A draw has numbers only, so it agrees with itself. -/
theorem takeDraw_same (hs : ctx.settings.checks = false) (c : ConcreteClass) (q : Quaternion α) :
    SameOutcome (Held.Agree σ τ) (ctx.takeDraw c q) (ctx.takeDraw c q) := by
  unfold takeDraw
  split
  · exact .ok (.fresh rfl)
  · exact .ok (.fresh rfl)
  · exact .ok (.fresh rfl)
  · exact takeMatrix_same hs c (.fresh rfl)
  · exact takeMatrix_same hs c (.fresh rfl)

theorem rotationMatrix_same (hs : ctx.settings.checks = false) (hab : Subject.Agree σ τ a b) :
    SameOutcome (Held.Agree σ τ) (ctx.rotationMatrix a) (ctx.rotationMatrix b) := by
  unfold rotationMatrix
  rw [hab.cls]
  exact toCanonical_same hs hab.held _

theorem coordinates_same (hs : ctx.settings.checks = false) (hab : Subject.Agree σ τ a b)
    (x : Key) :
    Asking.Same (Held.Agree σ τ) (ctx.coordinates a x) (ctx.coordinates b x) := by
  unfold coordinates
  rw [hab.cls]
  exact convert_same hs hab.held _ _

theorem dataFor_same (hs : ctx.settings.checks = false) (hab : Subject.Agree σ τ a b)
    (c : ConcreteClass) :
    Asking.Same (Held.Agree σ τ) (ctx.dataFor c a) (ctx.dataFor c b) :=
  coordinates_same hs hab c.key

/-- Exponentials, with the class that they are of. -/
theorem exp_same (hs : ctx.settings.checks = false) (c : ElementClass)
    (hk : Held.Agree σ τ h k) :
    Asking.Same (fun p q => p.1 = q.1 ∧ Held.Agree σ τ p.2 q.2) (ctx.exp c h) (ctx.exp c k) := by
  unfold exp
  simp only [show h.datum.shape = k.datum.shape from Datum.shape_eq hk.value]
  split
  · exact .throw _
  · exact .bind (convert_same hs hk _ _) fun _ _ hk' => .read_same fun c =>
      .read (takeData_same hs c hk') fun _ _ hk'' => .pure ⟨rfl, hk''⟩

theorem matrixProduct_same (hs : ctx.settings.checks = false) (hab : Subject.Agree σ τ a b)
    (hab' : Subject.Agree σ τ a' b') :
    SameOutcome (Held.Agree σ τ) (ctx.matrixProduct a a') (ctx.matrixProduct b b') :=
  .bind (rotationMatrix_same hs hab) fun _ _ hm => .bind (rotationMatrix_same hs hab') fun _ _ hn =>
    .map (Datum.apply₂_same natural_multiplied hm.value hn.value) fun _ _ => .fresh

/-- **Products** in the formulas of each class. -/
theorem mul_same (hs : ctx.settings.checks = false) (hab : Subject.Agree σ τ a b)
    (hab' : Subject.Agree σ τ a' b') :
    Asking.Same (Held.Agree σ τ) (ctx.mul a a') (ctx.mul b b') := by
  unfold mul
  rw [hab.cls]
  -- the class decides on the formula, and it is the same on both sides
  split
  · exact .read (rotationMatrix_same hs hab') fun _ _ hn =>
      .read (Sheet.product_same hab.held.sheet hn.sheet) fun _ _ hx => .pure ⟨hx, rfl⟩
  · exact .bind (coordinates_same hs hab' _) fun _ _ hq =>
      .lift (Settings.applyFormula₂_same _ hab.held hq)
  · exact .bind (coordinates_same hs hab' _) fun _ _ hr =>
      .lift (Settings.applyFormula₂_same _ hab.held hr)
  · exact .read (matrixProduct_same hs hab hab') fun _ _ hm =>
      .lift (Settings.applyFormula_same hs _ hm)
  · exact .read (matrixProduct_same hs hab hab') fun _ _ hm =>
      .lift (Settings.applyFormula_same hs _ hm)

/-- **Inverses** in the formulas of each class. -/
theorem inv_same (hs : ctx.settings.checks = false) (hab : Subject.Agree σ τ a b) :
    SameOutcome (Held.Agree σ τ) (ctx.inv a) (ctx.inv b) := by
  unfold inv
  rw [hab.cls]
  split
  · exact .bind (Sheet.transpose_same hab.held.sheet) fun _ _ hx => .ok ⟨hx, rfl⟩
  · exact Settings.applyFormula_same hs _ hab.held
  · exact .bind (Sheet.negate_same hab.held.sheet) fun _ _ hx => .ok ⟨hx, rfl⟩
  · exact .bind (Sheet.negate_same hab.held.sheet) fun _ _ hx => .ok ⟨hx, rfl⟩
  · exact .bind (rotationMatrix_same hs hab) fun _ _ hm =>
      .bind (Datum.apply_same natural_transposed hm.value) fun _ _ hd =>
        Settings.applyFormula_same hs _ (.fresh hd)

theorem angle_same (hab : Subject.Agree σ τ a b) :
    SameOutcome (Held.Agree σ τ) (angle a) (angle b) := by
  unfold angle
  rw [hab.cls, show a.held.datum.rows = b.held.datum.rows from Datum.rows_eq hab.held.value,
    show a.held.datum.cols = b.held.datum.cols from Datum.cols_eq hab.held.value]
  split
  · split
    · exact .map (Datum.apply_same natural_length hab.held.value) fun _ _ => .fresh
    · exact .error _
  · exact .error _

theorem shadow_same (hs : ctx.settings.checks = false) (hab : Subject.Agree σ τ a b) :
    SameOutcome (Held.Agree σ τ) (ctx.shadow a) (ctx.shadow b) := by
  unfold shadow
  rw [hab.cls]
  split
  · exact Settings.applyFormula_same hs _ hab.held
  · exact .error _

end Context

end Attitude
