import Attitude.Proofs.Elements.Homes
import Attitude.Proofs.Exact.Real
import Attitude.Proofs.Session.Ownership

/-!
# Whether derived data is independent

Data is derived from the matrix of an element, or from a matrix in a register, by the links of a
chain: when an element is made from another, when one is assigned to another, and when coordinates,
the rotation matrix or converted data are asked for. Every link makes a new matrix but one, the
formula that answers its argument. So the derived data is a new object unless the chain consists of
that formula alone, and then it is the very object that it was derived from
(`independence_of_run`).
-/

namespace Attitude

open Asking

variable {α : Type} [Ground α]

/-! ## Where the data goes -/

/-- The change makes `h` the data that the register shows. -/
inductive Change.Places (w : World α) (dst : String) (h : Held α) : Change α → Prop
  | bindMatrix : Places w dst h (.bindMatrix dst h)
  | bindElement (c : ConcreteClass) : Places w dst h (.bindElement dst c h)
  | assign {e : ElementId} {c : ElementCell} (he : w.store.cell e = .ok c) :
      Places w dst h (.assign dst e h)

omit [Ground α] in
/-- A register names what it was bound to. -/
theorem Store.ref_bind (s : Store α) (r : String) (x : Ref) : (s.bind r x).ref r = .ok x := by
  simp only [Store.ref, Store.bind, Table.get?_insert_self]

/-- A change that places data under a register makes it show the object of the data. -/
theorem Change.Places.shows {w : World α} {dst : String} {h : Held α} {c : Change α}
    (hc : c.Places w dst h) : (w.apply c).store.Shows dst (w.store.place h).1 := by
  cases hc with
  | bindMatrix => exact .inl (Store.ref_bind _ _ _)
  | bindElement c =>
    refine .inr ⟨_, ⟨c, (w.store.place h).1⟩, Store.ref_bind _ _ _, ?_, rfl⟩
    exact Store.cell_eq_ok_iff.2 Array.getElem?_push_size
  | @assign e c he =>
    have hold : (w.store.place h).2.elements[e.index]? = some c :=
      Store.cell_eq_ok_iff.1 ((w.store.cell_place h e).trans he)
    refine .inr ⟨e, { c with data := (w.store.place h).1 }, Store.ref_bind _ _ _, ?_, rfl⟩
    refine Store.cell_eq_ok_iff.2 ?_
    show ((w.store.place h).2.elements.modify e.index _)[e.index]? = _
    rw [Array.getElem?_modify, if_pos rfl, hold]
    rfl

/-- Whatever the change, the matrices that exist keep their content. -/
theorem Change.Places.keepsMatrices {w : World α} {dst : String} {h : Held α} {c : Change α}
    (hc : c.Places w dst h) : w.store.KeepsMatrices (w.apply c).store := by
  cases hc <;> exact w.store.keepsMatrices_place h

/-! ## Steps that derive data -/

namespace Session

variable {s : Session α} {x : Step α} {dst : String} {h : Held α}
  {chain : Except Fault (List (Link Formula))}

/-- The links that the router answers for two keys. -/
def links (s : Session α) (src dst : Key) : Except Fault (List (Link Formula)) :=
  (s.router.answer s.world.catalog.registry src dst).map Route.links

/-- The step derives data from the matrix `h` along a chain, and a register shows the data then. -/
inductive Derives (s : Session α) :
    Step α → String → Held α → Except Fault (List (Link Formula)) → Prop
  | new {dst cls b : String} {y : Subject α} {k : ElementClass} {c : ConcreteClass}
      (hk : s.world.catalog.classNamed cls = .ok k) (hc : k.concrete = .ok c)
      (hy : s.world.store.named b = .ok y) :
      Derives s (.new dst cls (some (.register b))) dst y.held (s.links y.cls.key c.key)
  | assign {dst a b : String} {y z : Subject α} (hz : s.world.store.named a = .ok z)
      (hy : s.world.store.named b = .ok y) :
      Derives s (.assign dst a b) dst y.held (s.links y.cls.key z.cls.key)
  | coordinates {dst a encoding : String} {y : Subject α} (hy : s.world.store.named a = .ok y) :
      Derives s (.coordinates dst a encoding) dst y.held
        (s.links y.cls.key (s.world.catalog.keyOfClassOrTag encoding))
  | rotationMatrix {dst a : String} {y : Subject α} (hy : s.world.store.named a = .ok y) :
      Derives s (.rotationMatrix dst a) dst y.held
        ((s.world.catalog.registry.canonicalLink .toCanonical y.cls.key).map fun l => [l])
  | convert {dst r source target : String} {h : Held α}
      (hh : s.world.matrixOf (.register r) = .ok h) :
      Derives s (.convert dst (.register r) source target) dst h
        (s.links (s.world.catalog.key source) (s.world.catalog.key target))

/-- The links of a chain that is answered. -/
theorem links_of_convert {k : Held α} {src dst : Key} {r : Router Formula}
    (hk : (s.world.context.convert h src dst).run s.router = (.ok k, r)) :
    ∃ links, s.links src dst = .ok links ∧ links.foldlM s.world.settings.applyLink h = .ok k := by
  obtain ⟨route, hroute, hk⟩ := Context.exists_of_convert hk
  refine ⟨route.links, ?_, hk⟩
  show (s.router.answer s.world.context.registry src dst).map Route.links = _
  rw [hroute]
  rfl

/-- What is planned applies the links of the chain and places the result. -/
theorem Derives.exists_of_plan (hx : s.Derives x dst h chain) {p : Plan α} {r : Router Formula}
    (hp : (s.world.plan x).run s.router = (.ok p, r)) :
    ∃ links k, chain = .ok links ∧ links.foldlM s.world.settings.applyLink h = .ok k ∧
      p.change.Places s.world dst k := by
  -- what the step has looked up is fixed, and is read off its plan lookup by lookup
  cases hx with
  | @new dst cls b y k c hk hc hy =>
    have hp := run_of_run_read_eq_ok hk hp
    have hp := run_of_run_read_eq_ok hc hp
    obtain ⟨l, r', hl, hp⟩ := exists_of_run_bind_eq_ok hp
    cases hp
    have hl := run_of_run_read_eq_ok (World.elementOf?_of_named hy) hl
    obtain ⟨links, hlinks, hl⟩ := links_of_convert hl
    exact ⟨links, l, hlinks, hl, .bindElement c⟩
  | @assign dst a b y z hz hy =>
    obtain ⟨e, he, hz⟩ := exists_of_bind_eq_ok hz
    have hp := run_of_run_read_eq_ok he hp
    have hp := run_of_run_read_eq_ok hz hp
    have hp := run_of_run_read_eq_ok hy hp
    obtain ⟨k, r', hk, hp⟩ := exists_of_run_bind_eq_ok hp
    cases hp
    obtain ⟨c, _, hc, -, -⟩ := Store.subject_eq_ok_iff.1 hz
    obtain ⟨links, hlinks, hk⟩ := links_of_convert hk
    exact ⟨links, k, hlinks, hk, .assign (Store.cell_eq_ok_iff.2 hc)⟩
  | @coordinates dst a encoding y hy =>
    have hp := run_of_run_read_eq_ok hy hp
    obtain ⟨k, r', hk, hp⟩ := exists_of_run_bind_eq_ok hp
    cases hp
    obtain ⟨links, hlinks, hk⟩ := links_of_convert hk
    exact ⟨links, k, hlinks, hk, .bindMatrix⟩
  | @rotationMatrix dst a y hy =>
    have hp := run_of_run_read_eq_ok hy hp
    obtain ⟨k, hk, hp⟩ := exists_of_run_read_eq_ok hp
    cases hp
    obtain ⟨l, hl, hk⟩ := exists_of_bind_eq_ok hk
    have hl : s.world.catalog.registry.canonicalLink .toCanonical y.cls.key = .ok l := hl
    refine ⟨[l], k, by rw [hl]; rfl, ?_, .bindMatrix⟩
    have hk : s.world.settings.applyLink y.held l = .ok k := hk
    rw [List.foldlM_cons, hk]
    rfl
  | @convert dst r source target h hh =>
    have hp := run_of_run_read_eq_ok hh hp
    obtain ⟨k, r', hk, hp⟩ := exists_of_run_bind_eq_ok hp
    cases hp
    obtain ⟨links, hlinks, hk⟩ := links_of_convert hk
    exact ⟨links, k, hlinks, hk, .bindMatrix⟩

omit [Ground α] in
/-- An element has its data in a matrix object. -/
theorem Store.home_of_named {s : Store α} {r : String} {y : Subject α} (hy : s.named r = .ok y) :
    ∃ m, y.held.home = some m ∧ s.sheet m = .ok y.held.sheet := by
  obtain ⟨e, -, hy⟩ := exists_of_bind_eq_ok hy
  obtain ⟨c, sheet, -, hsheet, rfl⟩ := Store.subject_eq_ok_iff.1 hy
  exact ⟨c.data, rfl, Store.sheet_eq_ok_iff.2 hsheet⟩

omit [Ground α] in
/-- Data is derived from a matrix object. -/
theorem Derives.home (hx : s.Derives x dst h chain) :
    ∃ m, h.home = some m ∧ s.world.store.sheet m = .ok h.sheet := by
  cases hx with
  | new hk hc hy => exact Store.home_of_named hy
  | assign hz hy => exact Store.home_of_named hy
  | coordinates hy => exact Store.home_of_named hy
  | rotationMatrix hy => exact Store.home_of_named hy
  | convert hh =>
    obtain ⟨o, -, hh⟩ := exists_of_bind_eq_ok hh
    cases o with
    | element e => cases hh
    | matrix m =>
      obtain ⟨sheet, hsheet, hh⟩ := exists_of_bind_eq_ok hh
      cases hh
      exact ⟨m, rfl, hsheet⟩

/-- **Steps.** The data that a step derives is a new object, unless the chain answers its argument.
-/
theorem Derives.step (hx : s.Derives x dst h chain) {a : Answer α} (ha : (s.step x).1 = .ok a) :
    ∃ links m n, chain = .ok links ∧ h.home = some m ∧ s.world.store.sheet m = .ok h.sheet ∧
      (s.step x).2.world.store.sheet m = .ok h.sheet ∧
      (s.step x).2.world.store.Shows dst n ∧ (Passing links → n = m) ∧
      (¬ Passing links → n ≠ m ∧ s.world.store.sheet n = .error .unknownName) := by
  obtain ⟨m, hm, hsheet⟩ := hx.home
  obtain ⟨e, r, -, hstep⟩ | ⟨p, r, hplan, hstep⟩ := s.step_cases x
  · rw [hstep] at ha
    cases ha
  obtain ⟨links, k, hlinks, hk, hplaces⟩ := hx.exists_of_plan hplan
  have hkept := hplaces.keepsMatrices m h.sheet hsheet
  rw [hstep]
  refine ⟨links, m, (s.world.store.place k).1, hlinks, hm, hsheet, hkept, hplaces.shows, ?_⟩
  -- either every link hands its data on, or the last ones made a new matrix
  obtain ⟨hpassing, rfl⟩ | ⟨hnot, hnew⟩ := Settings.home_of_applyLinks hk
  · refine ⟨fun _ => ?_, fun hnot => absurd hpassing hnot⟩
    simp only [Store.place, hm]
  · refine ⟨fun hpassing => absurd hpassing hnot, fun _ => ?_⟩
    rw [Store.place_of_new _ hnew]
    refine ⟨fun heq => ?_, s.world.store.sheet_size⟩
    rw [← heq, s.world.store.sheet_size] at hsheet
    cases hsheet

/-! ## Runs -/

/-- **Independence.** In every state of a run, whatever conversions are registered: when a step
derives data from a matrix object, this matrix keeps its content, and the derived data is a new
object, unless each link of the chain is the formula that answers its argument. In that case the
derived data is the same object. A poke that succeeds replaces one entry of one object, the entry at
its position, and it does so in every register that shows the object and in no other. -/
theorem independence_of_run (settings : Settings α) (xs : List (Step α)) :
    let s := ((⟨{ settings := settings }, {}⟩ : Session α).run xs).2
    (∀ x dst h chain a, s.Derives x dst h chain → (s.step x).1 = .ok a →
      let t := (s.step x).2.world.store
      ∃ links m n, chain = .ok links ∧ h.home = some m ∧ s.world.store.sheet m = .ok h.sheet ∧
        t.sheet m = .ok h.sheet ∧ t.Shows dst n ∧ (Passing links → n = m) ∧
        (¬ Passing links → n ≠ m ∧ s.world.store.sheet n = .error .unknownName)) ∧
    ∀ r p v a, (s.step (.poke r p v)).1 = .ok a →
      let t := (s.step (.poke r p v)).2.world.store
      ∃ m y z i j, s.world.store.ref r = .ok (.matrix m) ∧ s.world.store.sheet m = .ok y ∧
        p.Names y.datum.rows y.datum.cols i j ∧ y.Replaced z i j v ∧
        (∀ n, n ≠ m → t.sheet n = s.world.store.sheet n) ∧
        ∀ q, (s.world.store.Shows q m → t.dataOf q = .ok ⟨z, some m⟩) ∧
          (¬ s.world.store.Shows q m → t.dataOf q = s.world.store.dataOf q) := by
  intro s
  refine ⟨fun x dst h chain a hx ha => hx.step ha, ?_⟩
  intro r p v a ha t
  obtain ⟨m, y, z, hr, hy, hz, ht⟩ := store_of_poke ha
  -- a poke overwrites one matrix and touches no register
  have ht : t = s.world.store.overwrite m z := ht
  obtain ⟨i, j, hnames, hreplaced⟩ := Sheet.exists_replaced_of_setEntry hz
  rw [ht]
  refine ⟨m, y, z.stamp s.world.store.labels, i, j, hr, hy, hnames, hreplaced.stamp _,
    fun n hn => ?_, fun q => ⟨fun hq => ?_, fun hq => ?_⟩⟩
  · exact Store.sheet_overwrite_of_ne hn z
  · exact Store.dataOf_overwrite_of_shows hy z hq
  · exact Store.dataOf_overwrite_of_not_shows z hq

/-- A direct rule that answers its argument is registered, and the data of an element is derived by
it. -/
def sharedRun : List (Step ℝ) :=
  [.declare (.direct "MrpRep" "RotationVectorRep" .itself), .new "a" "Mrp" none,
   .coordinates "m" "a" "AngleAxis"]

/-- Euler angles of the element are a new object. A poke of the derived data replaces an entry of
the element. -/
theorem independence_after_sharedRun :
    let s := ((⟨{ settings := .initial }, {}⟩ : Session ℝ).run sharedRun).2
    (∃ n, (s.step (.coordinates "e" "a" "EulerRep")).2.world.store.Shows "e" n ∧ n ≠ ⟨0⟩ ∧
      s.world.store.sheet n = .error .unknownName) ∧
    s.world.store.Shows "a" ⟨0⟩ ∧
    ∃ y z, s.world.store.sheet ⟨0⟩ = .ok y ∧ y.Replaced z 0 0 1 ∧
      (s.step (.poke "m" (.linear 0) 1)).2.world.store.dataOf "a" = .ok ⟨z, some ⟨0⟩⟩ := by
  intro s
  have ha : s.world.store.Shows "a" ⟨0⟩ := .inr ⟨⟨0⟩, _, rfl, rfl, rfl⟩
  obtain ⟨hderived, hpoked⟩ := independence_of_run (.initial : Settings ℝ) sharedRun
  obtain ⟨links, m, n, hlinks, hhome, -, -, hn, -, hnew⟩ :=
    hderived (.coordinates "e" "a" "EulerRep") "e" _ _ _ (.coordinates rfl) rfl
  obtain ⟨m', y, z, i, j, hm', hy, hnames, hreplaced, -, hshown⟩ :=
    hpoked "m" (.linear 0) 1 _ rfl
  cases hlinks
  cases hhome
  cases hm'
  obtain ⟨hne, hunknown⟩ := hnew (by decide)
  have hshape : y.datum.rows = 3 ∧ y.datum.cols = 1 := by cases hy; exact ⟨rfl, rfl⟩
  rw [hshape.1, hshape.2] at hnames
  -- an index of a column names its row
  obtain ⟨rfl, rfl⟩ : i = 0 ∧ j = 0 := by
    cases hnames with
    | linear hi hj hk => omega
  exact ⟨⟨n, hn, hne, hunknown⟩, ha, y, z, hy, hreplaced, (hshown "a").1 ha⟩

/-- A poke of the derived data changes the element that it was derived from. -/
theorem dataOf_ne_after_sharedRun :
    let s := ((⟨{ settings := .initial }, {}⟩ : Session ℝ).run sharedRun).2
    ∃ h k : Held ℝ, s.world.store.dataOf "a" = .ok h ∧
      (s.step (.poke "m" (.linear 0) 1)).2.world.store.dataOf "a" = .ok k ∧
      h.datum.numbers? = some (⟨0, 0, 0⟩ : Vec3 ℝ).toGrid ∧
      k.datum.numbers? = some (⟨1, 0, 0⟩ : Vec3 ℝ).toGrid ∧
      h.datum.numbers? ≠ k.datum.numbers? := by
  have hzero : (lit 0 : ℝ) = 0 := lit_zero
  refine ⟨⟨⟨.numeric (⟨lit 0, lit 0, lit 0⟩ : Vec3 ℝ).toGrid, []⟩, some ⟨0⟩⟩,
    ⟨⟨.numeric (⟨1, lit 0, lit 0⟩ : Vec3 ℝ).toGrid, []⟩, some ⟨0⟩⟩, rfl, rfl, ?_, ?_, ?_⟩
  · rw [hzero]
    rfl
  · rw [hzero]
    rfl
  · intro hsame
    have hvectors : (⟨lit 0, lit 0, lit 0⟩ : Vec3 ℝ).toGrid = (⟨1, lit 0, lit 0⟩ : Vec3 ℝ).toGrid :=
      Option.some.inj hsame
    -- equal vectors would have equal first entries
    have hx : (lit 0 : ℝ) = 1 := congrArg Vec3.x (Option.some.inj (congrArg Grid.toVec3? hvectors))
    rw [hzero] at hx
    exact zero_ne_one hx

end Session

end Attitude
