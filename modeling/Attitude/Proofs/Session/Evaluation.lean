import Attitude.Proofs.Session.Carrying
import Attitude.Proofs.Symbolic.Assigned
import Attitude.Proofs.Exact.Real

/-!
# Evaluations in a session

A session gives every content that it puts into a matrix object a label of its own, and an
evaluation computes the content of a label once. So it matters that within all data of a session a
label stands for one content. That is so after every run (`labelled_run`): the contents that are
there keep their labels, operations only make data from them (`Datum.closed_labelled`), and a new
content gets the next label (`Datum.Labelled.stamp`).

Over the real numbers an evaluation therefore answers the value of the data, whatever was done to
get there (`evaluations_of_run`).
-/

namespace Attitude

open Asking

variable {α : Type}

/-! ## Labels -/

section Labels

variable {f g : Nat → Symbolic α} {n k : Nat}

/-- Labels keep their meaning when others are given one. -/
theorem Symbolic.Labelled.mono {s : Symbolic α} (h : s.Labelled f n) (hle : n ≤ k)
    (hfg : ∀ l < n, g l = f l) : s.Labelled g k := by
  induction s with
  | entries m => trivial
  | derived body source ih => exact ih h
  | derived₂ body left right ihl ihr => exact ⟨ihl h.1, ihr h.2⟩
  | stored stamp s ih =>
    obtain ⟨hlt, hs, hrest⟩ := h
    exact ⟨hlt.trans_le hle, (hfg _ hlt).trans hs, ih hrest⟩

variable {d : Datum α}

/-- More labels may be in use, and those below keep what they stand for. -/
theorem Datum.Labelled.mono (h : d.Labelled f n) (hle : n ≤ k) (hfg : ∀ l < n, g l = f l) :
    d.Labelled g k := by
  cases d with
  | numeric m => trivial
  | symbolic s => exact Symbolic.Labelled.mono h hle hfg

variable [Ground α]

/-- Transforms make data from data, and give no labels. -/
theorem Datum.closed_labelled (f : Nat → Symbolic α) (n : Nat) : Closed (Labelled f n) where
  numeric _ := trivial
  entries _ := trivial
  apply {t d e} hd h := by
    cases d with
    | numeric m =>
      obtain ⟨_, -, rfl⟩ := exists_of_map_eq_ok h
      trivial
    | symbolic s =>
      obtain ⟨_, -, rfl⟩ := exists_of_map_eq_ok h
      exact hd
  apply₂ {t a b d} ha hb h := by
    -- a product is of data of both kinds, and numbers have no labels
    have hleft : a.toSymbolic.Labelled f n := by
      cases a with
      | numeric m => trivial
      | symbolic s => exact ha
    have hright : b.toSymbolic.Labelled f n := by
      cases b with
      | numeric m => trivial
      | symbolic s => exact hb
    cases a with
    | numeric m =>
      cases b with
      | numeric m' =>
        obtain ⟨_, -, rfl⟩ := exists_of_map_eq_ok h
        trivial
      | symbolic t =>
        obtain ⟨_, -, rfl⟩ := exists_of_map_eq_ok h
        exact ⟨hleft, hright⟩
    | symbolic s =>
      obtain ⟨_, -, rfl⟩ := exists_of_map_eq_ok h
      exact ⟨hleft, hright⟩

/-- The next label is given to the data, unless it needs none. -/
theorem Datum.Labelled.stamp (h : d.Labelled f n) :
    ∃ g, (∀ l < n, g l = f l) ∧ (d.stamp n).Labelled g (n + 1) := by
  cases d with
  | numeric m => exact ⟨f, fun _ _ => rfl, trivial⟩
  | symbolic s =>
    let g (l : Nat) : Symbolic α := if l = n then s else f l
    have hfg (l : Nat) (hl : l < n) : g l = f l := if_neg hl.ne
    have hs : s.Labelled g (n + 1) := Symbolic.Labelled.mono h (Nat.le_succ n) hfg
    refine ⟨g, hfg, ?_⟩
    cases s with
    | entries m => trivial
    | stored stamp s => exact hs
    | derived body source => exact ⟨Nat.lt_succ_self n, if_pos rfl, hs⟩
    | derived₂ body left right => exact ⟨Nat.lt_succ_self n, if_pos rfl, hs⟩

end Labels

variable [Ground α]

/-! ## Stores -/

/-- Within all data of the store a label stands for one content, and the next label for none. -/
def Store.Labelled (s : Store α) : Prop := ∃ f, s.All (Datum.Labelled f s.labels)

namespace Store

variable {s : Store α} {f : Nat → Symbolic α} {h : Held α}

omit [Ground α] in
theorem labelled_empty : Store.Labelled ({} : Store α) :=
  ⟨fun _ => .entries ⟨0, 0, #v[]⟩, fun _ _ => nofun⟩

/-- A new object takes the next label, so that no earlier one changes its meaning. -/
theorem All.labelled_place (hs : s.All (Datum.Labelled f s.labels))
    (hh : h.datum.Labelled f s.labels) : (s.place h).2.Labelled := by
  unfold place
  cases h.home with
  | some m => exact ⟨f, hs⟩
  | none =>
    obtain ⟨g, hfg, hstamp⟩ := hh.stamp
    refine ⟨g, fun m x hx => ?_⟩
    have hx : (s.matrices.push (h.sheet.stamp s.labels))[m]? = some x := hx
    rw [Array.getElem?_push] at hx
    split at hx
    · cases hx
      exact hstamp
    · exact (hs m x hx).mono (Nat.le_succ _) hfg

/-- A content that is written over another one takes the next label, and the old label keeps its
meaning for the data that was derived before. -/
theorem All.labelled_overwrite (hs : s.All (Datum.Labelled f s.labels)) {z : Sheet α}
    (hz : z.datum.Labelled f s.labels) (m : MatrixId) : (s.overwrite m z).Labelled := by
  obtain ⟨g, hfg, hstamp⟩ := hz.stamp
  refine ⟨g, fun i x hx => ?_⟩
  obtain rfl | hx := getElem?_overwrite hx
  · exact hstamp
  · exact (hs i x hx).mono (Nat.le_succ _) hfg

end Store

/-- **Changes.** A content that is put into an object gets a label of its own. -/
theorem World.labelled_apply {w : World α} {f : Nat → Symbolic α}
    (hw : w.store.All (Datum.Labelled f w.store.labels)) {c : Change α}
    (hc : c.Carries (Datum.Labelled f w.store.labels)) : (w.apply c).store.Labelled := by
  cases c with
  | bindMatrix dst h => exact hw.labelled_place hc
  | bindElement dst c h => exact hw.labelled_place hc
  | replaceData e h => exact hw.labelled_place hc
  | assign dst e h => exact hw.labelled_place hc
  | overwrite m x => exact hw.labelled_overwrite hc m
  | none => exact ⟨f, hw⟩
  | bind dst x => exact ⟨f, hw⟩
  | configure change => exact ⟨f, hw⟩
  | extend catalog event => exact ⟨f, hw⟩
  | drainLog => exact ⟨f, hw⟩

namespace Session

/-- **Step.** A step keeps labels: a failed one changes no data, and the data of a plan is made of
the data that was there. -/
theorem labelled_step {s : Session α} (hs : s.world.store.Labelled) (x : Step α) :
    (s.step x).2.world.store.Labelled := by
  obtain ⟨f, hf⟩ := hs
  obtain ⟨-, hplanned⟩ := (Datum.closed_labelled f _).plan_carries hf x s.router
  obtain ⟨e, r, -, hstep⟩ | ⟨p, r, hplan, hstep⟩ := s.step_cases x
  · rw [hstep]
    exact ⟨f, hf⟩
  · rw [hplan] at hplanned
    rw [hstep]
    exact World.labelled_apply hf (hplanned p rfl)

/-- **Labels.** After every run a label stands for one content. -/
theorem labelled_run (settings : Settings α) (xs : List (Step α)) :
    ((⟨{ settings := settings }, {}⟩ : Session α).run xs).2.world.store.Labelled :=
  run_invariant (P := fun _ => True) (I := fun s => s.world.store.Labelled)
    (fun _ x _ hs => labelled_step hs x) xs _ (fun _ _ => trivial) Store.labelled_empty

/-! ## Evaluations -/

/-- An evaluation only looks at the data. -/
theorem answer_of_eval {s : Session α} {r : String} {h : Held α}
    (hh : s.world.store.dataOf r = .ok h) (symbols : List (String × α)) :
    (s.step (.ask (.eval r symbols))).1 =
      (h.datum.evalAt fun name => symbols.lookup name).map fun m =>
        .matrix ⟨.numeric, some m⟩ := by
  generalize hvalue : (h.datum.evalAt fun name => symbols.lookup name) = value
  have hplan : (s.world.plan (.ask (.eval r symbols))).run s.router =
      (value.map fun m => .reply (.matrix ⟨.numeric, some m⟩), s.router) := by
    simp only [World.plan, World.answer, run_bind, run_lift, hh, hvalue]
    cases value <;> rfl
  unfold step
  rw [hplan]
  cases value <;> rfl

/-- **Evaluations.** After every run, take the data in a register and any numbers for symbols that
include the given ones. An evaluation answers the value of the data, or fails as some symbol has no
number. It answers if each symbol of the data is given one. -/
theorem evaluations_of_run (settings : Settings ℝ) (xs : List (Step ℝ)) (r : String) (h : Held ℝ)
    (symbols : List (String × ℝ)) (σ : String → ℝ) :
    let s := ((⟨{ settings := settings }, {}⟩ : Session ℝ).run xs).2
    let evaluated := (s.step (.ask (.eval r symbols))).1
    let value : Except Fault (Answer ℝ) := .ok (.matrix ⟨.numeric, some (h.datum.value σ)⟩)
    s.world.store.dataOf r = .ok h → (∀ name a, symbols.lookup name = some a → a = σ name) →
      (evaluated = value ∨ evaluated = .error .unassignedSymbol) ∧
      ((∀ name ∈ h.datum.symbols, (symbols.lookup name).isSome) → evaluated = value) := by
  intro s evaluated value hh hσ
  -- labels are handed out once in a run, so equal ones stand for equal data
  obtain ⟨f, hf⟩ : s.world.store.Labelled := labelled_run settings xs
  have hlabelled := hf.dataOf hh
  have hanswer : evaluated = _ := answer_of_eval hh symbols
  rw [hanswer]
  constructor
  · -- what evaluates at all evaluates to the value
    obtain ⟨m, hm⟩ | hunassigned := h.datum.evalAt_cases fun name => symbols.lookup name
    · left
      rw [hm, Datum.eq_value_of_evalAt hlabelled Ground.plain_real hσ hm]
      rfl
    · right
      rw [hunassigned]
      rfl
  · -- every symbol is assigned, so nothing is left unevaluated
    intro hall
    have hassigned (name : String) (hname : name ∈ h.datum.symbols) :
        symbols.lookup name = some (σ name) := by
      obtain ⟨a, ha⟩ := Option.isSome_iff_exists.1 (hall name hname)
      rw [ha, hσ name a ha]
    rw [Datum.evalAt_eq_value hlabelled Ground.plain_real hassigned]
    rfl

end Session

end Attitude
