import Attitude.Proofs.Elements.Metric
import Attitude.Proofs.Session.Closeness

/-!
# Closeness in a session

What a session answers to the question whether two elements are close, after any run that keeps the
tables of conversions (`metric_of_run`). The order of the two never matters, and neither does the
sign of a quaternion. For valid elements of one class the answers are those of a metric.
-/

namespace Attitude.Session

/-- A comparison answers what the comparison of the two elements is. -/
theorem step_isClose_eq_flag_iff {s : Session ℝ} {a b : String} {x y : Subject ℝ}
    (hx : s.world.store.named a = .ok x) (hy : s.world.store.named b = .ok y) (tol : Option ℝ)
    (close : Bool) : (s.step (.ask (.isClose a b tol))).1 = .ok (.flag close) ↔
      s.world.context.isClose (tol.getD s.world.settings.defaultTol) x y = .ok close := by
  rw [answer_of_isClose hx hy]
  cases s.world.context.isClose (tol.getD s.world.settings.defaultTol) x y with
  | error e => exact ⟨nofun, nofun⟩
  | ok z => simp only [Except.map, Except.ok.injEq, Answer.flag.injEq]

/-- **Closeness.** After a run that keeps the tables, two elements of any classes and with any data
are close in one order exactly if they are in the other one, and if one order is refused the other
one is, too. A valid element of matrices, quaternions, Euler angles or parameters is close to itself
without any tolerance. If a valid element is close to a second one of its class and that to a third,
the first is close to the third under the sum of both tolerances. And a quaternion is as close to
any element as its negative is. -/
theorem metric_of_run (settings : Settings ℝ) (xs : List (Step ℝ))
    (hxs : ∀ x ∈ xs, x.KeepsTables) :
    let s := ((⟨{ settings := settings }, {}⟩ : Session ℝ).run xs).2
    let close a b tol := (s.step (.ask (.isClose a b tol))).1
    (∀ (a b : String) (x y : Subject ℝ) (tol : Option ℝ),
      s.world.store.named a = .ok x → s.world.store.named b = .ok y →
      close a b tol = close b a tol) ∧
    (∀ (a b c : String) (x y z : Subject ℝ) (f : Family) (l m n : Grid ℝ) (L M N : Mat3 ℝ),
      s.world.store.named a = .ok x → s.world.store.named b = .ok y →
      s.world.store.named c = .ok z → x.Valid f l L → y.Valid f m M → z.Valid f n N →
      close a a (some 0) = .ok (.flag true) ∧
      (∀ tol, ∃ flag, close a b tol = .ok (.flag flag)) ∧
      ∀ tol tol', close a b (some tol) = .ok (.flag true) →
        close b c (some tol') = .ok (.flag true) →
        close a c (some (tol + tol')) = .ok (.flag true)) ∧
    ∀ (a a' b : String) (x x' y : Subject ℝ) (q : Quaternion ℝ) (tol : Option ℝ),
      s.world.store.named a = .ok x → s.world.store.named a' = .ok x' →
      s.world.store.named b = .ok y →
      x.cls.family = .quaternion → x'.cls.family = .quaternion →
      x.held.datum.numbers? = some q.toGrid → x'.held.datum.numbers? = some (-q).toGrid →
      close a' b tol = close a b tol ∧ close b a' tol = close b a tol := by
  intro s close
  have hs : s.Regular := regular_run settings xs hxs
  have hreg : s.world.context.registry = Catalog.builtinRegistry := hs.world.catalog.registry
  have hregular {a : String} {x : Subject ℝ} (hx : s.world.store.named a = .ok x) : x.Regular :=
    hs.world.store.named hx
  -- both orders ask for the same distance
  have hcomm {a b : String} {x y : Subject ℝ} (hx : s.world.store.named a = .ok x)
      (hy : s.world.store.named b = .ok y) (tol : Option ℝ) : close a b tol = close b a tol := by
    simp only [close, answer_of_isClose hx hy, answer_of_isClose hy hx,
      Context.isClose_comm hreg (hregular hx) (hregular hy)]
  refine ⟨fun a b x y tol hx hy => hcomm hx hy tol, ?_, ?_⟩
  · intro a b c x y z f l m n L M N hx hy hz hl hm hn
    refine ⟨?_, fun tol => ?_, fun tol tol' hab hbc => ?_⟩
    · exact (step_isClose_eq_flag_iff hx hx _ _).2 (Context.isClose_self hreg (hregular hx) hl)
    · obtain ⟨flag, hflag⟩ := Context.exists_isClose hreg (hregular hx) (hregular hy) hl hm _
      exact ⟨flag, (step_isClose_eq_flag_iff hx hy tol flag).2 hflag⟩
    · -- the answers are turned into bounds, added, and turned back
      rw [step_isClose_eq_flag_iff hx hy] at hab
      rw [step_isClose_eq_flag_iff hy hz] at hbc
      rw [step_isClose_eq_flag_iff hx hz]
      exact Context.isClose_trans hreg (hregular hx) (hregular hy) (hregular hz) hl hm hn hab hbc
  · intro a a' b x x' y q tol hx hx' hy hf hf' hq hq'
    -- a quaternion and its negative are at the same distance from everything
    have hneg : close a' b tol = close a b tol := by
      simp only [close, answer_of_isClose hx' hy, answer_of_isClose hx hy,
        Context.isClose_neg hreg (hregular hx) (hregular hx') (hregular hy) hf hf' hq hq']
    exact ⟨hneg, (hcomm hy hx' tol).trans (hneg.trans (hcomm hx hy tol))⟩

/-- A quaternion, its negative, and an element of another class. -/
noncomputable def comparedRun : List (Step ℝ) :=
  [.new "p" "Quat" (some (.data (.ok lower.toGrid))),
    .new "n" "Quat" (some (.data (.ok (-lower).toGrid))), .new "v" "AngleAxis" none]

/-- The quaternion is close to itself, so its negative is close to it, too, and the way by the
negative leads back. -/
theorem metric_after_comparedRun :
    (∀ x ∈ comparedRun, x.KeepsTables) ∧
      let s := ((⟨{ settings := .initial }, {}⟩ : Session ℝ).run comparedRun).2
      let close a b tol := (s.step (.ask (.isClose a b tol))).1
      ∃ p n v : Subject ℝ, s.world.store.named "p" = .ok p ∧ s.world.store.named "n" = .ok n ∧
        s.world.store.named "v" = .ok v ∧ p.Valid .quaternion lower.toGrid lower.toMat3 ∧
        n.Valid .quaternion (-lower).toGrid lower.toMat3 ∧
        close "p" "v" none = close "v" "p" none ∧
        close "n" "v" none = close "p" "v" none ∧
        close "p" "n" (some 0) = .ok (.flag true) ∧
        close "p" "p" (some (0 + 0)) = .ok (.flag true) := by
  have hxs : ∀ x ∈ comparedRun, x.KeepsTables := by
    simp only [comparedRun, List.forall_mem_cons]
    exact ⟨trivial, trivial, trivial, List.forall_mem_nil _⟩
  obtain ⟨hcomm, htriangle, hneg⟩ := metric_of_run .initial comparedRun hxs
  have hencodes : Family.Encodes .quaternion (-lower).toGrid lower.toMat3 :=
    .exact (.quaternion isUnit_lower.neg lower.toMat3_neg)
  refine ⟨hxs, _, _, _, rfl, rfl, rfl, ⟨rfl, rfl, encodes_lower⟩, ⟨rfl, rfl, hencodes⟩,
    hcomm _ _ _ _ none rfl rfl, ?_, ?_⟩
  · exact (hneg "p" "n" "v" _ _ _ lower none rfl rfl rfl rfl rfl rfl rfl).1
  · obtain ⟨hself, -, htrans⟩ := htriangle "p" "n" "p" _ _ _ .quaternion _ _ _ _ _ _ rfl rfl rfl
      ⟨rfl, rfl, encodes_lower⟩ ⟨rfl, rfl, hencodes⟩ ⟨rfl, rfl, encodes_lower⟩
    obtain ⟨hfirst, hsecond⟩ :=
      hneg "p" "n" "p" _ _ _ lower (some 0) rfl rfl rfl rfl rfl rfl rfl
    exact ⟨hsecond.trans hself, htrans 0 0 (hsecond.trans hself) (hfirst.trans hself)⟩

end Attitude.Session
