import Attitude.Proofs.Elements.Homes
import Attitude.Proofs.Registry.Resolution
import Attitude.Proofs.Session.Objects
import Attitude.Session.Execution

/-!
# Steps in place and steps that are planned

A step that is carried out in place does what it was planned to do (`Session.execute_eq_step`). So
every operation has computed all that it stores before it stores anything in the session, and a step
that stops has stored nothing there.

The proof goes through both accounts of a step at once. `Performs w f m n` compares a computation
`m` that stores as it goes with a computation `n` that plans: from the world `w`, with `f` as the
data of the element that is being made, they ask the router the same, stop at the same fault with
the world as it was, and otherwise `m` leaves what the plan changes and gives its answer. The rules
follow the parts of a step: a look at the world is a look of both, data that goes to the element
being made is no part of the plan, and the first change of the session is the last thing that can
happen.
-/

namespace Attitude

variable {α β γ : Type}

/-! ## What the element shows -/

/-- What is put into a store shows as before. -/
theorem Sheet.shown_stamp [Ground α] (x : Sheet α) (l : Nat) :
    (x.stamp l).datum.shown = x.datum.shown := by
  obtain ⟨d, u⟩ := x
  cases d with
  | numeric m => rfl
  | symbolic s => cases s <;> rfl

namespace Store

variable [Ground α] {s : Store α} {e : ElementId} {a : Subject α} {h : Held α}

/-- A matrix in the course of a computation is a new one, or the object that it says it is. -/
def Knows (s : Store α) (h : Held α) : Prop := ∀ m, h.home = some m → s.sheet m = .ok h.sheet

omit [Ground α] in
/-- New data is not taken from any object. -/
theorem knows_of_new (hh : h.home = none) : s.Knows h := by
  intro m hm
  rw [hh] at hm
  cases hm

omit [Ground α] in
/-- The data of an element is where it says it is. -/
theorem knows_of_subject (hs : s.subject e = .ok a) : s.Knows a.held := by
  obtain ⟨c, x, -, hx, rfl⟩ := subject_eq_ok_iff.1 hs
  rintro m ⟨⟩
  exact sheet_eq_ok_iff.2 hx

/-- An element that was given other data has this data. -/
theorem exists_subject_replaceData (hs : s.subject e = .ok a) (hh : s.Knows h) :
    ∃ k, (s.replaceData e h).subject e = .ok ⟨a.cls, k⟩ ∧ k.datum.shown = h.datum.shown := by
  cases hhome : h.home with
  | none =>
    exact ⟨_, subject_replaceData_self hhome hs, Sheet.shown_stamp _ _⟩
  | some m =>
    obtain ⟨c, x, hc, -, rfl⟩ := subject_eq_ok_iff.1 hs
    refine ⟨⟨h.sheet, some m⟩, subject_eq_ok_iff.2 ⟨{ c with data := m }, h.sheet, ?_, ?_, rfl⟩,
      rfl⟩
    · simp only [replaceData, place, hhome, Array.getElem?_modify, if_pos, hc, Option.map_some]
    · simp only [replaceData, place, hhome]
      exact sheet_eq_ok_iff.1 (hh m hhome)

end Store

namespace Execution

/-! ## Parts of a computation -/

/-- The second action starts in the machine that the first one leaves, with all that was stored. A
fault ends both, and what was stored stays. -/
theorem run_bind (m : Execution α β) (k : β → Execution α γ) (s : Machine α) :
    (m >>= k).run s = match m.run s with
      | (.ok b, t) => (k b).run t
      | (.error e, t) => (.error e, t) := by
  show (ExceptT.bindCont k (m s).1) (m s).2 = _
  rcases h : m.run s with ⟨_ | b, t⟩
  · have h' : m s = _ := h
    rw [h']; rfl
  · have h' : m s = _ := h
    rw [h']; rfl

/-- Looking at the world changes nothing. -/
theorem run_look (g : World α → Except Fault β) (s : Machine α) :
    (look g).run s = (g s.world, s) := rfl

theorem run_ask (g : World α → Asking β) (s : Machine α) : (ask g).run s =
    (((g s.world).run s.router).1, { s with router := ((g s.world).run s.router).2 }) := rfl

theorem run_changeStore (g : Store α → Store α) (s : Machine α) : (changeStore g).run s =
    (.ok (), { s with world := { s.world with store := g s.world.store } }) := rfl

/-- A look that has two parts is two looks. -/
theorem look_bind (f : World α → Except Fault β) (g : World α → β → Except Fault γ) :
    (look fun w => f w >>= g w) = look f >>= fun b => look fun w => g w b := by
  funext s
  show _ = ((look f >>= fun b => look fun w => g w b) : Execution α γ).run s
  rw [run_bind, run_look]
  show (f s.world >>= g s.world, s) = _
  cases f s.world <;> rfl

/-! ## Operations that compute and then store -/

section Operations

variable [Ground α] (a : Receiver)

/-- Data is taken in one store, after everything that can be wrong with it. -/
theorem setData_eq (h : Held α) :
    a.setData h = look (fun w => w.context.takeData a.cls h) >>= a.write := by
  unfold Receiver.setData Context.takeData
  rw [look_bind, bind_assoc]
  refine bind_congr fun ⟨t, traits⟩ => ?_
  by_cases hshape : h.datum.shape ≠ traits.shape
  · simp only [if_pos hshape]
    rfl
  · simp only [if_neg hshape]
    show _ = (look fun w => w.context.checkRotation a.cls h >>= fun _ => .ok h.copy) >>= a.write
    rw [look_bind, bind_assoc]
    rfl

/-- The data from a matrix is computed by one look at the world, and then stored. -/
theorem setMatrix_eq (h : Held α) :
    a.setMatrix h = look (fun w => w.context.takeMatrix a.cls h) >>= a.write := by
  unfold Receiver.setMatrix Context.takeMatrix
  by_cases hshape : h.datum.shape ≠ [3, 3]
  · simp only [if_pos hshape]
    rfl
  · simp only [if_neg hshape]
    show _ = (look fun w => w.context.fromCanonical h a.cls.key >>= w.context.takeData a.cls) >>= _
    rw [look_bind, bind_assoc]
    exact bind_congr fun x => setData_eq a x

/-- The data of a draw is computed by looks at the world, and then stored. -/
theorem setRandom_eq (x y z t : α) :
    a.setRandom x y z t = (look fun _ => Quaternion.ofDraw x y z t) >>= fun q =>
      look (fun w => w.context.takeDraw a.cls q) >>= a.write := by
  unfold Receiver.setRandom Context.takeDraw
  refine bind_congr fun q => ?_
  cases a.cls.family with
  | matrix => rfl
  | quaternion => rfl
  | rotationVector => rfl
  | euler => exact setMatrix_eq a _
  | rodrigues => exact setMatrix_eq a _

end Operations

/-! ## Doing what is planned -/

variable [Ground α] {w : World α} {f : Option (Held α)}

/-- From the world `w`, with `f` as the data of the element that is being made, `m` does what `n`
plans. -/
def Performs (w : World α) (f : Option (Held α)) (m : Execution α (Answer α))
    (n : Asking (Plan α)) : Prop :=
  ∀ r, ∃ f', m.run ⟨⟨w, r⟩, f⟩ = match n.run r with
    | (.error e, r') => (.error e, ⟨⟨w, r'⟩, f'⟩)
    | (.ok p, r') => (.ok p.answer, ⟨⟨w.apply p.change, r'.apply p.change⟩, f'⟩)

/-- Both accounts fail alike, and neither has stored anything. -/
theorem Performs.throw (e : Fault) : Performs w f (throw e) (throw e) :=
  fun _ => ⟨f, rfl⟩

/-- The rule for the end of a step: what is left of it brings about the planned change. -/
theorem Performs.done {m : Execution α (Answer α)} {p : Plan α}
    (h : ∀ r, ∃ f', m.run ⟨⟨w, r⟩, f⟩ =
      (.ok p.answer, ⟨⟨w.apply p.change, r.apply p.change⟩, f'⟩)) : Performs w f m (pure p) :=
  fun r => h r

/-- The rule for a look at the world. -/
theorem Performs.read {g : World α → Except Fault β} {k : β → Execution α (Answer α)}
    {n : β → Asking (Plan α)} (h : ∀ b, g w = .ok b → Performs w f (k b) (n b)) :
    Performs w f (look g >>= k) (liftM (g w) >>= n) := by
  intro r
  rw [run_bind, run_look, Asking.run_bind, Asking.run_lift]
  cases hb : g w with
  | error e => exact ⟨f, rfl⟩
  | ok b => exact h b hb r

/-- The rule for a part that asks the router. -/
theorem Performs.request {g : World α → Asking β} {k : β → Execution α (Answer α)}
    {n : β → Asking (Plan α)}
    (h : ∀ b r r', (g w).run r = (.ok b, r') → Performs w f (k b) (n b)) :
    Performs w f (ask g >>= k) (g w >>= n) := by
  intro r
  rw [run_bind, run_ask, Asking.run_bind]
  rcases hb : (g w).run r with ⟨e | b, r'⟩
  · exact ⟨f, rfl⟩
  · exact h b r r' hb r'

/-- The rule for a part that the plan has no counterpart of: it answers, and leaves the session as
it is. -/
theorem Performs.skip {m : Execution α β} {b : β} {f' : Option (Held α)}
    {k : β → Execution α (Answer α)} {n : Asking (Plan α)}
    (hm : ∀ r, m.run ⟨⟨w, r⟩, f⟩ = (.ok b, ⟨⟨w, r⟩, f'⟩)) (hk : Performs w f' (k b) n) :
    Performs w f (m >>= k) n := by
  intro r
  rw [run_bind, hm r]
  exact hk r

/-- The rule for a look whose result is known already. -/
theorem Performs.read_known {g : World α → Except Fault β} {b : β}
    {k : β → Execution α (Answer α)} {n : Asking (Plan α)} (hb : g w = .ok b)
    (hk : Performs w f (k b) n) : Performs w f (look g >>= k) n :=
  .skip (fun _ => by rw [run_look, hb]) hk

/-! ### An element that is being made -/

section Made

variable {a : Receiver} {h : Held α} {k : Unit → Execution α (Answer α)} {n : Asking (Plan α)}

omit [Ground α] in
/-- The data of an element in the making, if it has any yet. -/
theorem run_data?_made {s : Machine α} (ha : a.home = none) : a.data?.run s = (.ok s.made, s) := by
  simp only [Receiver.data?, ha]
  rfl

omit [Ground α] in
/-- The data of an element in the making, once it has some. -/
theorem run_data_made {s : Machine α} (ha : a.home = none) (hs : s.made = some h) :
    a.data.run s = (.ok h, s) := by
  unfold Receiver.data
  rw [run_bind, run_data?_made ha, hs]
  rfl

/-- The rule for a new element. -/
theorem Performs.new {c : ConcreteClass} {k : Receiver → Execution α (Answer α)}
    (h : Performs w none (k ⟨c, none⟩) n) : Performs w f (make c >>= k) n :=
  .skip (fun _ => rfl) h

/-- The rule for data that goes to the new element. -/
theorem Performs.write_made (ha : a.home = none) (hk : Performs w (some h) (k ()) n) :
    Performs w f (a.write h >>= k) n := by
  refine .skip (fun r => ?_) hk
  simp only [Receiver.write, ha]
  rfl

/-- The rule for the data that the new element has. -/
theorem Performs.data_made {k : Held α → Execution α (Answer α)} (ha : a.home = none)
    (hk : Performs w (some h) (k h) n) : Performs w (some h) (a.data >>= k) n :=
  .skip (fun _ => run_data_made ha rfl) hk

/-- The rule for the identity as its data. -/
theorem Performs.setIdentity_made (type : Option ScalarType) (ha : a.home = none)
    (hk : Performs w (some (a.cls.family.identity
      (type.getD ((f.map fun h => h.datum.scalarType).getD .numeric)))) (k ()) n) :
    Performs w f (a.setIdentity type >>= k) n := by
  unfold Receiver.setIdentity
  cases type with
  | some t =>
    simp only [pure_bind]
    exact .write_made ha hk
  | none =>
    simp only [bind_assoc, pure_bind]
    exact .skip (fun _ => run_data?_made ha) (.write_made ha hk)

/-- The rule for an assignment to it. -/
theorem Performs.assign_made {n : Held α → Asking (Plan α)} (b : Subject α) (ha : a.home = none)
    (hk : ∀ h, Performs w (some h) (k ()) (n h)) :
    Performs w f (a.assign b >>= k) (w.context.dataFor a.cls b >>= n) := by
  unfold Receiver.assign
  rw [bind_assoc]
  exact .request fun h _ _ _ => .write_made ha (hk h)

/-- The rule for data that it takes. -/
theorem Performs.setData_made {n : Held α → Asking (Plan α)} (h : Held α) (ha : a.home = none)
    (hk : ∀ h, Performs w (some h) (k ()) (n h)) :
    Performs w f (a.setData h >>= k) (liftM (w.context.takeData a.cls h) >>= n) := by
  rw [setData_eq, bind_assoc]
  exact .read fun h _ => .write_made ha (hk h)

/-- A register names the new element at last. -/
theorem Performs.name_made (dst : String) (ha : a.home = none) :
    Performs w (some h) (nameElement dst a) (pure (.newElement dst a.cls h)) := by
  refine .done fun r => ⟨some h, ?_⟩
  simp only [nameElement, Receiver.name, Receiver.answer, ha, bind_assoc]
  rw [run_bind, run_data_made ha rfl]
  dsimp only
  rw [run_bind, run_changeStore]
  dsimp only
  rw [run_bind, run_data_made ha rfl]
  rfl

end Made

/-! ### An element of the store -/

section Stored

variable {a : Receiver} {h : Held α} {e : ElementId} {s : Subject α} {n : Asking (Plan α)}

omit [Ground α] in
/-- The data of an element that is stored is looked up in its object. -/
theorem run_data?_stored {t : Machine α} (ha : a.home = some e)
    (hs : t.world.store.subject e = .ok s) : a.data?.run t = (.ok (some s.held), t) := by
  simp only [Receiver.data?, ha]
  rw [run_bind, run_look, hs]
  rfl

omit [Ground α] in
/-- The data of an element that is stored is there. -/
theorem run_data_stored {t : Machine α} (ha : a.home = some e)
    (hs : t.world.store.subject e = .ok s) : a.data.run t = (.ok s.held, t) := by
  unfold Receiver.data
  rw [run_bind, run_data?_stored ha hs]
  rfl

/-- Other data goes to the object of the element. -/
theorem run_write_stored {t : Machine α} (ha : a.home = some e) : (a.write h).run t =
    (.ok (), { t with world := { t.world with store := t.world.store.replaceData e h } }) := by
  simp only [Receiver.write, ha]
  rfl

/-- The element is shown with the data that its object has. -/
theorem run_answer_stored {t : Machine α} (ha : a.home = some e)
    (hs : t.world.store.subject e = .ok s) :
    a.answer.run t = (.ok (.element a.cls.name s.held.datum.shown), t) := by
  unfold Receiver.answer
  rw [run_bind, run_data_stored ha hs]
  rfl

/-- A register that names the object shows its data. -/
theorem run_nameElement_stored {t : Machine α} (dst : String) (ha : a.home = some e)
    (hs : t.world.store.subject e = .ok s) : (nameElement dst a).run t =
      (.ok (.element a.cls.name s.held.datum.shown),
        { t with world := { t.world with store := t.world.store.bind dst (.element e) } }) := by
  unfold nameElement
  simp only [Receiver.name, ha]
  rw [run_bind, run_changeStore]
  dsimp only
  -- a register that is bound leaves the objects as they are
  exact run_answer_stored ha hs

/-- The rule for an element that is looked up. -/
theorem Performs.element {k : Receiver → Execution α (Answer α)} {n : Subject α → Asking (Plan α)}
    (hk : ∀ s, w.store.subject e = .ok s → Performs w f (k ⟨s.cls, some e⟩) (n s)) :
    Performs w f (receiver e >>= k) (liftM (w.store.subject e) >>= n) := by
  unfold receiver
  rw [bind_assoc]
  exact .read hk

/-- The rule for the data that the element has. -/
theorem Performs.data_stored {k : Held α → Execution α (Answer α)} (ha : a.home = some e)
    (hs : w.store.subject e = .ok s) (hk : Performs w f (k s.held) n) :
    Performs w f (a.data >>= k) n :=
  .skip (fun _ => run_data_stored ha hs) hk

/-- A step that changes the element ends with other data for it. -/
theorem Performs.write_stored (ha : a.home = some e) (hs : w.store.subject e = .ok s)
    (hh : w.store.Knows h) :
    Performs w f (a.write h >>= fun _ => a.answer) (pure (.newData e a.cls h)) := by
  refine .done fun r => ⟨f, ?_⟩
  obtain ⟨k, hk, hshown⟩ := Store.exists_subject_replaceData hs hh
  rw [run_bind, run_write_stored ha]
  dsimp only
  rw [run_answer_stored ha hk, hshown]
  rfl

/-- An assignment also names the element. -/
theorem Performs.assign_stored (dst : String) (ha : a.home = some e)
    (hs : w.store.subject e = .ok s) (hh : w.store.Knows h) :
    Performs w f (a.write h >>= fun _ => nameElement dst a)
      (pure ⟨.assign dst e h, .element a.cls.name h.datum.shown⟩) := by
  refine .done fun r => ⟨f, ?_⟩
  obtain ⟨k, hk, hshown⟩ := Store.exists_subject_replaceData hs hh
  rw [run_bind, run_write_stored ha]
  dsimp only
  rw [run_nameElement_stored dst ha hk, hshown]
  rfl

/-- A register names the element as it is. -/
theorem Performs.name_stored (dst : String) (ha : a.home = some e)
    (hs : w.store.subject e = .ok s) : Performs w f (nameElement dst a)
      (pure ⟨.bind dst (.element e), .element a.cls.name s.held.datum.shown⟩) := by
  refine .done fun r => ⟨f, ?_⟩
  rw [run_nameElement_stored dst ha hs]
  rfl

end Stored

/-- A register names a matrix. -/
theorem Performs.name_matrix (dst : String) (h : Held α) :
    Performs w f (nameMatrix dst h) (pure (.newMatrix dst h)) :=
  .done fun _ => ⟨f, rfl⟩

/-! ## Steps -/

variable (w f)

/-- An element that is being made gets the data that is planned for it. -/
theorem Performs.initialise {c : ConcreteClass} (x : Option (Argument α))
    {k : Unit → Execution α (Answer α)} {n : Held α → Asking (Plan α)}
    (hk : ∀ h, Performs w (some h) (k ()) (n h)) :
    Performs w none (Receiver.initialise ⟨c, none⟩ x >>= k) (w.makeData c x >>= n) := by
  cases x with
  | none => exact .setIdentity_made none rfl (hk _)
  | some x =>
    cases x with
    | gap m => exact .setIdentity_made none rfl (hk _)
    | _ =>
      -- an element is copied, and anything else is taken as data
      unfold Receiver.initialise World.makeData
      rw [bind_assoc, bind_assoc]
      refine .read fun b _ => ?_
      cases b with
      | some b => exact .assign_made b rfl hk
      | none =>
        dsimp only
        rw [bind_assoc, bind_assoc]
        exact .read fun h _ => .setData_made h rfl hk

/-- The plan of a declaration, from what it brings about. -/
def declaredPlan (r : Declared) : Asking (Plan α) :=
  pure ⟨.extend r.catalog r.event, match r.registered with
    | some (t, traits) => .traits t traits
    | none => .nothing⟩

/-- Declarations. A definition is checked as far as it goes before the tables change. -/
theorem performs_declare (d : Declaration) :
    Performs w f (declare d) (liftM (w.catalog.declare d) >>= declaredPlan) := by
  -- both sides end at the first lookup that fails, so they are compared lookup by lookup
  have hlift {β γ : Type} (x : Except Fault β) (g : β → Except Fault γ) :
      (liftM (x >>= g) : Asking γ) = liftM x >>= fun b => liftM (g b) := by
    cases x <;> rfl
  cases d with
  | tag name ofRotations =>
    simp only [Catalog.declare, hlift, bind_assoc]
    exact .read fun _ _ => .done fun _ => ⟨f, rfl⟩
  | traits tag shape canonical =>
    cases canonical with
    | none =>
      simp only [Catalog.declare, hlift, bind_assoc]
      exact .read fun t _ => .done fun _ => ⟨f, rfl⟩
    | some name =>
      simp only [Catalog.declare, hlift, bind_assoc]
      exact .read fun t _ => .read fun k _ => .done fun _ => ⟨f, rfl⟩
  | legs tag toCanonical fromCanonical =>
    simp only [Catalog.declare, hlift, bind_assoc]
    exact .read fun t ht => .done fun _ => ⟨f, rfl⟩
  | direct source target g =>
    simp only [Catalog.declare, hlift, bind_assoc]
    exact .read fun a _ => .read fun b _ => .done fun _ => ⟨f, rfl⟩
  | elementClass name tag parent =>
    simp only [Catalog.declare, hlift, bind_assoc]
    refine .read fun p hp => .read fun _ _ => ?_
    cases tag with
    | none => exact .done fun _ => ⟨f, rfl⟩
    | some tag =>
      simp only [hlift, bind_assoc]
      cases hfind : w.catalog.registry.find (w.catalog.key tag) with
      -- refused before anything is stored
      | error e =>
        refine fun r => ⟨f, ?_⟩
        simp only [run_bind, run_look, Catalog.declareHolder, hfind]
        rfl
      | ok found =>
        obtain ⟨t, traits⟩ := found
        have hagain : w.catalog.registry.find (.tag t) = .ok (t, traits) := by
          obtain ⟨-, ht⟩ := Registry.find_cases hfind
          exact Registry.find_tag_of_traits ht
        refine .read_known (b := (t, w.catalog.registry.hasLegs (w.catalog.key tag))) ?_ ?_
        · simp only [hfind]
          rfl
        cases hlegs : w.catalog.registry.hasLegs (w.catalog.key tag) with
        -- a tag without legs is refused as early
        | false =>
          refine fun r => ⟨f, ?_⟩
          simp only [Catalog.declareHolder, hfind, hlegs]
          rfl
        | true =>
          simp only [Catalog.declareHolder, hfind, hlegs]
          exact .read_known hagain (.done fun _ => ⟨f, rfl⟩)

/-- **A step in place does what is planned.** -/
theorem performs_ofStep (x : Step α) : Performs w f (ofStep x) (w.plan x) := by
  cases x with
  | new dst cls x =>
    refine .read fun c hc => .read fun c hc => .new (.initialise w x fun h => ?_)
    exact .name_made dst rfl
  | identity dst cls type =>
    refine .read fun c hc => .read fun c hc => .new (.setIdentity_made none rfl ?_)
    refine .setIdentity_made type rfl ?_
    -- the identity is stored twice, the second time in the wanted type
    have htype : (c.family.identity .numeric : Held α).datum.scalarType = .numeric := by
      cases c.family <;> rfl
    simp only [Option.map_none, Option.getD_none, Option.map_some, Option.getD_some, htype]
    exact .name_made dst rfl
  | random dst cls x y z t =>
    refine .read fun c hc => .read fun c hc => .new (.setIdentity_made none rfl ?_)
    rw [setRandom_eq, bind_assoc]
    refine .read fun q hq => ?_
    rw [bind_assoc]
    exact .read fun h hh => .write_made rfl (.name_made dst rfl)
  | exp dst cls x =>
    refine .read fun c hc => .read fun v hv => ?_
    unfold Context.exp
    by_cases hshape : v.datum.shape ≠ [3, 1]
    · simp only [if_pos hshape]
      exact .throw _
    · -- the route is asked for before the class is looked up
      simp only [if_neg hshape, bind_assoc, pure_bind]
      exact .request fun h _ _ _ => .read fun c hc => .new (.setData_made h rfl fun _ =>
        .name_made dst rfl)
  | log dst a =>
    refine .read fun x hx => ?_
    cases x with
    | element e => exact .read fun _ _ => .request fun _ _ _ _ => .name_matrix dst _
    | matrix m => exact .read fun _ _ => .read fun _ _ => .name_matrix dst _
  | rotationMatrix dst a => exact .read fun _ _ => .read fun _ _ => .name_matrix dst _
  | angle dst a => exact .read fun _ _ => .read fun _ _ => .name_matrix dst _
  | shadow dst a => exact .read fun _ _ => .read fun _ _ => .name_matrix dst _
  | coordinates dst a encoding => exact .read fun _ _ => .request fun _ _ _ _ => .name_matrix dst _
  | getData dst a => exact .read fun _ _ => .name_matrix dst _
  | mul dst a x =>
    refine .read fun y hy => ?_
    cases y with
    | element e =>
      refine .read fun s hs => .read fun b hb => .new (.assign_made s rfl fun copy => ?_)
      unfold Receiver.multiply
      rw [bind_assoc]
      -- the copy is read back, multiplied and written
      refine .data_made rfl ?_
      rw [bind_assoc]
      exact .request fun h _ _ _ => .write_made rfl (.name_made dst rfl)
    | matrix m => exact .read fun _ _ => .name_matrix dst _
  | mulInPlace a x =>
    refine .read fun y hy => ?_
    cases y with
    | element e =>
      refine .element fun s hs => .read fun b hb => ?_
      unfold Receiver.multiply
      rw [bind_assoc]
      refine .data_stored rfl hs ?_
      rw [bind_assoc]
      -- the element is written when the product is there, and not before
      exact .request fun h _ _ hh =>
        .write_stored rfl hs (Store.knows_of_new (Context.home_of_mul hh))
    | matrix m => exact .read fun _ _ => .name_matrix a _
  | invert a =>
    refine .read fun e he => .element fun s hs => ?_
    unfold Receiver.invert
    rw [bind_assoc]
    refine .data_stored rfl hs ?_
    rw [bind_assoc]
    exact .read fun h hh => .write_stored rfl hs (Store.knows_of_new (Context.home_of_inv hh))
  | inverse dst a =>
    refine .read fun s hs => .new (.assign_made s rfl fun copy => ?_)
    unfold Receiver.invert
    rw [bind_assoc]
    refine .data_made rfl ?_
    rw [bind_assoc]
    exact .read fun h _ => .write_made rfl (.name_made dst rfl)
  | canonical dst a =>
    refine .read fun e he => .read fun s hs => .read fun b hb => ?_
    cases b with
    | true => exact .name_stored dst rfl hs
    | false =>
      exact .read fun _ _ => .read fun _ _ => .read fun c _ =>
        .new (.assign_made s rfl fun _ => .name_made dst rfl)
  -- a new element holds the identity first, whether or not there is a type
  | cast dst a type =>
    refine .read fun s hs => ?_
    cases type with
    | none =>
      exact .skip (fun _ => rfl) (.new (.setIdentity_made none rfl (.throw _)))
    | some t =>
      have hcast : (look fun _ => (some t).mapM fun t => s.held.sheet.cast t : Execution α _) =
          look (fun _ => s.held.sheet.cast t) >>= fun x => pure (some x) := look_bind _ _
      simp only [hcast, bind_assoc, pure_bind]
      exact .read fun x hx =>
        .new (.setIdentity_made none rfl (.write_made rfl (.name_made dst rfl)))
  | assign dst a b =>
    refine .read fun e he => .element fun s hs => .read fun b hb => ?_
    unfold Receiver.assign
    rw [bind_assoc]
    refine .request fun h r r' hh => .assign_stored dst rfl hs ?_
    -- what is handed on may be the other element's own matrix
    obtain ⟨e', -, hb⟩ := exists_of_bind_eq_ok hb
    obtain rfl | hnew := Context.home_of_convert hh
    · exact Store.knows_of_subject hb
    · exact Store.knows_of_new hnew
  | setData a x =>
    refine .read fun e he => .element fun s hs => .read fun m hm => ?_
    rw [setData_eq, bind_assoc]
    exact .read fun h hh => .write_stored rfl hs (Store.knows_of_new (Context.home_of_takeData hh))
  | setMatrix a x =>
    refine .read fun e he => .element fun s hs => .read fun m hm => ?_
    rw [setMatrix_eq, bind_assoc]
    exact .read fun h hh =>
      .write_stored rfl hs (Store.knows_of_new (Context.home_of_takeMatrix hh))
  | setIdentity a type =>
    refine .read fun e he => .element fun s hs => ?_
    have hwrite (t : ScalarType) := Performs.write_stored (f := f) (a := ⟨s.cls, some e⟩) rfl hs
      (Store.knows_of_new (s.cls.family.home_identity t))
    unfold Receiver.setIdentity
    cases type with
    | some t =>
      simp only [pure_bind]
      exact hwrite t
    | none =>
      simp only [bind_assoc, pure_bind]
      exact .skip (fun _ => run_data?_stored rfl hs) (hwrite _)
  | setRandom a x y z t =>
    refine .read fun e he => .element fun s hs => ?_
    rw [setRandom_eq, bind_assoc]
    refine .read fun q hq => ?_
    rw [bind_assoc]
    exact .read fun h hh => .write_stored rfl hs (Store.knows_of_new (Context.home_of_takeDraw hh))
  -- the only step that writes into a matrix
  | poke m p x =>
    refine .read fun y hy => ?_
    cases y with
    | matrix m => exact .read fun y _ => .read fun z _ => .done fun _ => ⟨f, rfl⟩
    | element e => exact .throw _
  | hat dst x => exact .read fun _ _ => .read fun _ _ => .name_matrix dst _
  | vee dst x => exact .read fun _ _ => .read fun _ _ => .name_matrix dst _
  | convert dst x source target =>
    exact .read fun _ _ => .request fun _ _ _ _ => .name_matrix dst _
  | toCanonical dst x tag => exact .read fun _ _ => .read fun _ _ => .name_matrix dst _
  | fromCanonical dst x tag => exact .read fun _ _ => .read fun _ _ => .name_matrix dst _
  | ask q =>
    have hask : Performs w f ((Execution.ask (·.answer q) : Execution α (Answer α)) >>= pure)
        (w.answer q >>= fun a => pure (.reply a)) := .request fun a _ _ _ => .done fun _ => ⟨f, rfl⟩
    rw [bind_pure] at hask
    exact hask
  | declare d => exact performs_declare w f d
  | configure change => exact .done fun _ => ⟨f, rfl⟩
  | drainLog => exact fun _ => ⟨f, rfl⟩

end Execution

/-- **Steps in place are planned steps.** -/
theorem Session.execute_eq_step [Ground α] (s : Session α) (x : Step α) :
    s.execute x = s.step x := by
  obtain ⟨f, hrun⟩ := Execution.performs_ofStep s.world none x s.router
  have hrun : (Execution.ofStep x).run { toSession := s } = _ := hrun
  unfold execute step
  rw [hrun]
  rcases (s.world.plan x).run s.router with ⟨e | p, r⟩ <;> rfl

end Attitude
