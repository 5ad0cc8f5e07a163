import Attitude.Proofs.Rotation.Inversion
import Attitude.Proofs.Session.Adjoint

/-!
# The shadow set in a session

What a session answers to the question for the other set of parameters of an element, after any run
that keeps the tables of conversions (`shadow_of_run`). The other set is to be the one of the
opposite quaternion, of a magnitude of one or more. With the guard as it is set from the start the
answer is that set exactly for parameters longer than about 3e-4, as the guard compares the squared
length with `eps`, not the length. Shorter parameters are answered themselves
(`shadow_of_shortParameters`), and those that are longer than the reciprocal of that length have a
shadow set too short to come back from.
-/

namespace Attitude

open Partial Rodrigues

namespace Context

variable {ctx : Context ℝ} {a : Subject ℝ} {σ : String → ℝ} {r : Vec3 ℝ}

/-- The other set of parameters is answered, whatever is checked. -/
theorem exists_shadow (ha : a.Regular) (hf : a.cls.family = .rodrigues)
    (hr : a.held.datum.value σ = r.toGrid) : ∃ h, ctx.shadow a = .ok h ∧
      h.datum.value σ = (Rodrigues.shadow ctx.settings.eps r).toGrid := by
  have hfits := ha.fits
  rw [hf] at hfits
  obtain ⟨d, -, -, happly⟩ :=
    ctx.settings.applyFormula_unchecked (f := .rodriguesShadow) rfl rfl hfits
  have hvalue := Settings.value_of_applyFormula (σ := σ) happly
  rw [hr] at hvalue
  refine ⟨_, ?_, (Except.ok.inj hvalue).symm⟩
  unfold shadow
  rw [hf]
  exact happly

end Context

namespace Session

/-- **The shadow set.** Over any ordered field, the shadow set of parameters has the opposite
quaternion, and the squared lengths are reciprocal, exactly for a squared length of more than 1e-7;
what is shorter is answered as it is. The shadow set of the shadow set are the parameters again
exactly for a squared length of less than 1e7. No quotient is undefined.

After a run that keeps the tables and leaves the guard as it is set from the start, a session
answers this set for an element of parameters, so parameters in the unit ball are answered by
parameters outside of it exactly past the guard. -/
theorem shadow_of_run (settings : Settings ℝ) (xs : List (Step ℝ))
    (hxs : ∀ x ∈ xs, x.KeepsTables) :
    (∀ {K : Type} [Field K] [LinearOrder K] [IsStrictOrderedRing K] (r : Vec3 K),
      let eps : K := 1 / 10 ^ 7
      (toQuaternion (shadow eps r) = -toQuaternion r ↔ eps < r.dot r) ∧
      ((shadow eps r).dot (shadow eps r) * r.dot r = 1 ↔ eps < r.dot r) ∧
      (shadow eps (shadow eps r) = r ↔ r.dot r < 10 ^ 7) ∧
      (r.dot r ≤ eps → shadow eps r = r) ∧
      shadow (value eps) (r.map value) = (shadow eps r).map value) ∧
    let s := ((⟨{ settings := settings }, {}⟩ : Session ℝ).run xs).2
    s.world.settings.eps = 1 / 10 ^ 7 →
    ∀ (d a : String) (x : Subject ℝ) (σ : String → ℝ) (r : Vec3 ℝ),
      s.world.store.named a = .ok x → x.cls.family = .rodrigues →
      x.held.datum.value σ = r.toGrid →
      let t := shadow (1 / 10 ^ 7) r
      (∃ h : Held ℝ, (s.step (.shadow d a)).1 = .ok (.matrix h.datum.shown) ∧
        h.datum.value σ = t.toGrid) ∧
      (t.norm * r.norm = 1 ↔ 1 / 10 ^ 7 < r.dot r) ∧
      (r.norm ≤ 1 → (1 ≤ t.norm ↔ 1 / 10 ^ 7 < r.dot r)) := by
  constructor
  · intro K _ _ _ r eps
    have heps : 0 ≤ eps := by positivity
    -- the guard is below one, so a vector and its shadow are not both below it
    have hone : eps < 1 := (div_lt_one (by positivity)).2 (by norm_num)
    refine ⟨toQuaternion_shadow_iff heps, dot_self_shadow_mul_iff heps hone, ?_, shadow_of_le,
      shadow_value r heps⟩
    rw [shadow_shadow_iff heps hone, one_div_mul_eq_div, div_lt_one (by positivity)]
  · intro s hguard d a x σ r hx hf hr t
    have hs : s.Regular := regular_run settings xs hxs
    have heps : (0 : ℝ) ≤ 1 / 10 ^ 7 := by positivity
    have hone : (1 : ℝ) / 10 ^ 7 < 1 := by norm_num
    refine ⟨?_, norm_shadow_mul_norm_iff heps hone, one_le_norm_shadow_iff heps hone⟩
    obtain ⟨k, hk, hvalue⟩ : ∃ k, s.world.context.shadow x = .ok k ∧
        k.datum.value σ = (shadow s.world.settings.eps r).toGrid :=
      Context.exists_shadow (hs.world.store.named hx) hf hr
    rw [hguard] at hvalue
    exact ⟨k, step_of_newMatrix hs.coherent (.read_ok hx (.read_ok hk (.pure rfl))), hvalue⟩

/-- The bound the guard is set to from the start. -/
theorem guard_initial : (Settings.initial : Settings ℝ).eps = 1 / 10 ^ 7 :=
  eps_initial.trans (by norm_num)

/-- Parameters in the unit ball. -/
noncomputable def near : Vec3 ℝ := ⟨lit 1 / lit 2, lit 0, lit 0⟩

/-- An element of them. -/
noncomputable def nearRun : List (Step ℝ) := [.new "a" "Mrp" (some (.data (.ok near.toGrid)))]

/-- Parameters of half the unit length are answered by those of twice that length. -/
theorem shadow_after_nearRun :
    (∀ x ∈ nearRun, x.KeepsTables) ∧
      let s := ((⟨{ settings := .initial }, {}⟩ : Session ℝ).run nearRun).2
      let eps : ℝ := 1 / 10 ^ 7
      s.world.settings.eps = eps ∧ eps < near.dot near ∧ near.norm ≤ 1 ∧
      toQuaternion (shadow eps near) = -toQuaternion near ∧ shadow eps (shadow eps near) = near ∧
      (∃ h : Held ℝ, (s.step (.shadow "b" "a")).1 = .ok (.matrix h.datum.shown) ∧
        h.datum.value (fun _ => 0) = (shadow eps near).toGrid) ∧
      1 ≤ (shadow eps near).norm := by
  have hxs : ∀ x ∈ nearRun, x.KeepsTables := by
    simp only [nearRun, List.forall_mem_cons]
    exact ⟨trivial, List.forall_mem_nil _⟩
  have hdot : near.dot near = 1 / 4 := by norm_num [near, Vec3.dot_eq]
  have hlength : near.norm = 1 / 2 := Vec3.norm_of_dot_self (by norm_num) (by rw [hdot]; norm_num)
  have hfar : (1 : ℝ) / 10 ^ 7 < near.dot near := by norm_num [hdot]
  -- a vector well inside the ball, whose shadow lies outside
  have hinside : near.norm ≤ 1 := by norm_num [hlength]
  obtain ⟨hfield, hsession⟩ := shadow_of_run .initial nearRun hxs
  obtain ⟨hquaternion, -, hback, -⟩ := hfield near
  obtain ⟨hanswer, -, houtside⟩ := hsession guard_initial "b" "a" _ (fun _ => 0) near rfl rfl rfl
  exact ⟨hxs, guard_initial, hfar, hinside, hquaternion.2 hfar, hback.2 (by norm_num [hdot]),
    hanswer, (houtside hinside).2 hfar⟩

/-- Parameters of a squared length of 1e-8 are their own shadow set, and those of 1e8 do not come
back. -/
theorem shadow_of_shortParameters :
    let eps : ℝ := (Settings.initial : Settings ℝ).eps
    let r : Vec3 ℝ := ⟨1 / 10 ^ 4, 0, 0⟩
    let far : Vec3 ℝ := ⟨10 ^ 4, 0, 0⟩
    r ≠ Vec3.zero ∧ r.norm ≤ 1 ∧ shadow eps r = r ∧
      toQuaternion (shadow eps r) ≠ -toQuaternion r ∧
      (shadow eps r).dot (shadow eps r) * r.dot r ≠ 1 ∧ ¬ 1 ≤ (shadow eps r).norm ∧
      shadow eps (shadow eps far) ≠ far := by
  intro eps r far
  have heps : eps = 1 / 10 ^ 7 := guard_initial
  have hdot : r.dot r = 1 / 10 ^ 8 := by norm_num [r, Vec3.dot_eq]
  have hfar : far.dot far = 10 ^ 8 := by norm_num [far, Vec3.dot_eq]
  have hlength : r.norm = 1 / 10 ^ 4 :=
    Vec3.norm_of_dot_self (by norm_num) (by rw [hdot]; norm_num)
  have hsame : shadow eps r = r := shadow_of_le (by norm_num [hdot, heps])
  -- the shadow set of the distant ones is near, and is answered again
  have hnear : shadow eps far = (-far).sdiv (far.dot far) :=
    shadow_of_lt (by norm_num [hfar, heps])
  have hstays : shadow eps (shadow eps far) = shadow eps far := by
    refine shadow_of_le ?_
    rw [hnear, dot_self_neg_sdiv far (by norm_num [hfar]), hfar, heps]
    norm_num
  rw [hsame, hdot, hlength, hstays, hnear, toQuaternion_eq, hdot]
  refine ⟨fun h => ?_, by norm_num, rfl, fun h => ?_, by norm_num, by norm_num, fun h => ?_⟩
  · have hx := congrArg Vec3.x h
    norm_num [r, Vec3.zero_eq] at hx
  · have hw := congrArg Quaternion.w h
    norm_num [Quaternion.neg_eq] at hw
  · rw [hfar] at h
    have hx := congrArg Vec3.x h
    norm_num [Vec3.sdiv, Vec3.map, Vec3.neg_eq, far] at hx

end Session

end Attitude
