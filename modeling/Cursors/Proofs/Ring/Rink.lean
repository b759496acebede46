/-
  Cursors.Proofs.Ring.Rink
  ────────────────────────
  **RINGS ON A LIST THAT OTHERS EDIT.**

  On a rink, any number of rings and list rings go round one list, and the
  list is edited from outside at any time and in any way.  Of each of them
  the ledger `due` says how many elements it takes the list to have: those
  of the time when it came, and one more or less for each addition or
  removal of its own.

  As long as the list has as many as are due, a position that a ring keeps
  is one of the list, whatever the elements are by now (`Ring.Fits`,
  `ListRing.Fits`), and the ring responds as it would on a list of its own.
  Otherwise it reports the change and touches nothing.
-/
import Cursors.Proofs.Ring.Circle

namespace Cursors

variable {σ α β : Type}

/-! ## §1. What a call may come to. -/

/-- What a call comes to on a list of `n` elements where `due` are due: it reports a change of the
size if there was one, and only then, and fails in no other way than at the end or for want of an
element to edit. -/
structure Guarded (n : Nat) (due : Int) (r : Except Failure β) (s s' : σ) : Prop where
  resized_iff : (∃ e, r = .error e ∧ e.kind = "ConcurrentModificationError") ↔ (n : Int) ≠ due
  /-- A report names both sizes, and nothing has been touched. -/
  reported : (n : Int) ≠ due →
    s' = s ∧ ∃ what expected, r = .error (.resized what expected n) ∧ (expected : Int) = due
  refused : (n : Int) = due → ∀ e, r = .error e →
    e.kind = "StopIteration" ∨ e.kind = "IllegalStateError"

theorem guarded_of_resized {n expected : Nat} (hne : n ≠ expected) (what : Looped) (s : σ) :
    Guarded n expected (.error (.resized what expected n) : Except Failure β) s s where
  resized_iff := ⟨fun _ => by omega, fun _ => ⟨_, rfl, rfl⟩⟩
  reported _ := ⟨rfl, what, expected, rfl, rfl⟩
  refused _ := by omega

theorem guarded_of_fitting {n : Nat} {due : Int} (heq : (n : Int) = due) {r : Except Failure β}
    (hr : ∀ e, r = .error e → e = .ended ∨ ∃ edit bothWays, e = .notMoved edit bothWays)
    (s s' : σ) : Guarded n due r s s' where
  resized_iff := by
    refine ⟨?_, fun hne => absurd heq hne⟩
    intro hresized
    obtain ⟨e, he, hkind⟩ := hresized
    obtain rfl | ⟨edit, bothWays, rfl⟩ := hr e he
    · exact absurd hkind (by decide)
    · exact absurd (show "IllegalStateError" = _ from hkind) (by decide)
  reported hne := absurd heq hne
  refused _ := by
    intro e he
    obtain rfl | ⟨edit, bothWays, rfl⟩ := hr e he
    · exact .inl rfl
    · exact .inr rfl

theorem Guarded.map {n : Nat} {due : Int} {r : Except Failure α} {s s' : σ}
    (h : Guarded n due r s s') (f : α → β) : Guarded n due (r.map f) s s' := by
  have herror : ∀ e, r.map f = .error e ↔ r = .error e := by
    intro e
    cases r with
    | error e' =>
        exact ⟨fun h => congrArg _ (Except.error.inj h), fun h => congrArg _ (Except.error.inj h)⟩
    | ok a => exact ⟨fun h => by contradiction, fun h => by contradiction⟩
  obtain ⟨hresized, hreported, hrefused⟩ := h
  refine ⟨?_, ?_, ?_⟩
  · simp only [herror]
    exact hresized
  · simp only [herror]
    exact hreported
  · simp only [herror]
    exact hrefused

/-- The number of elements by which a call of a ring made the list longer. -/
def Spin.growth (spin : Spin) (r : Except Failure β) : Int := -spin.removals r

/-- The number of elements by which a gesture made the list longer. -/
def Gesture.growth : Gesture α → Except Failure (Reply α) → Int
  | .call (.add _), .ok _ => 1
  | .call .remove, .ok _ => -1
  | _, _ => 0

theorem Spin.growth_of_error (spin : Spin) (e : Failure) :
    spin.growth (.error e : Except Failure β) = 0 := by
  match spin with
  | .pull .next | .pull .hasNext | .pull .remove | .reset => rfl

theorem Spin.growth_map (spin : Spin) (r : Except Failure α) (f : α → β) :
    spin.growth (r.map f) = spin.growth r := by
  cases r with
  | error e => exact (growth_of_error spin e).trans (growth_of_error spin e).symm
  | ok a =>
      match spin with
      | .pull .next | .pull .hasNext | .pull .remove | .reset => rfl

theorem Gesture.growth_of_error (g : Gesture α) (e : Failure) : g.growth (.error e) = 0 := by
  match g with
  | .call .next | .call .previous | .call .hasNext | .call .hasPrevious | .call (.add _)
  | .call (.set _) | .call .remove | .nextIndex | .previousIndex | .reset => rfl

/-! ## §2. A ring that fits a list of its size. -/

namespace Ring

variable {self : Field σ Ring} {list : Field σ (List α)} {s : σ}

/-- The ring is one that goes round the elements that it expects. -/
def Fits (r : Ring) : Prop :=
  ∃ mark : Round.Mark, mark.Within r.expected ∧ mark.ring r.expected = r

theorem fits_ring {c : Round α} (h : c.Valid) : c.ring.Fits := by
  refine ⟨c.mark, ?_, ?_⟩
  · rw [c.expected_ring]
    exact h
  · rw [c.expected_ring]
    rfl

/-- A ring that fits goes round any list of the size that it expects. -/
theorem Fits.shown (h : (self.get s).Fits) (hlen : (list.get s).length = (self.get s).expected) :
    ∃ c, Round.Shown self list c s := by
  obtain ⟨mark, hwithin, hring⟩ := h
  rw [← hlen] at hwithin hring
  exact ⟨{ items := list.get s, mark := mark }, rfl, hring.symm, hwithin⟩

theorem ask_of_resized (hne : (list.get s).length ≠ (self.get s).expected) (p : Pull) :
    p.ask (forward self (.ofList list)) s
      = .failure (.resized .collection (self.get s).expected (list.get s).length) s := by
  have hcheck : check self (.ofList list) s
      = .failure (.resized .collection (self.get s).expected (list.get s).length) s :=
    checkSize_of_ne rfl hne
  cases p <;> simp only [Pull.ask, forward, hasNext, next, remove, Act.bind_apply, hcheck]

/-- A call of a ring that fits is guarded, and leaves a ring that fits and expects what the call
made of the list. -/
theorem ask_fits (hbeside : self.Beside list) (h : (self.get s).Fits) (p : Pull) :
    ∃ r ring xs, p.ask (forward self (.ofList list)) s = .of r (self.set ring (list.set xs s))
      ∧ Guarded (list.get s).length (self.get s).expected r s (self.set ring (list.set xs s))
      ∧ ring.Fits
      ∧ (ring.expected : Int) = (self.get s).expected + (Spin.pull p).growth r := by
  by_cases hlen : (list.get s).length = (self.get s).expected
  · obtain ⟨c, hc⟩ := h.shown hlen
    obtain ⟨hask, hvalid⟩ := ask_respond hbeside hc (.pull p)
    refine ⟨_, _, _, hask, ?_, fits_ring hvalid, ?_⟩
    · refine guarded_of_fitting (congrArg _ hlen) ?_ _ _
      intro e he
      obtain hended | hremove := (Round.respond_of_error he).1
      · exact .inl hended
      · exact .inr ⟨_, _, hremove⟩
    · have hless := Round.length_respond hc.valid (.pull p)
      rw [Round.expected_ring, ← hlen, hc.list_get, Spin.growth]
      omega
  · refine ⟨.error (.resized .collection (self.get s).expected (list.get s).length), self.get s,
      list.get s, ?_, ?_, h, ?_⟩
    · rw [hbeside.lawful_other.set_get, hbeside.lawful.set_get]
      exact ask_of_resized hlen p
    · rw [hbeside.lawful_other.set_get, hbeside.lawful.set_get]
      exact guarded_of_resized hlen _ _
    · rw [Spin.growth_of_error, Int.add_zero]

/-- A reset asks for nothing and leaves a ring that fits. -/
theorem fits_reset (r : Ring) : Fits { r with position := 0, last := none } :=
  ⟨.start, trivial, rfl⟩

end Ring

/-! ## §3. A list ring that fits a list of its size. -/

namespace Circle

variable {c : Circle α}

theorem cross_of_error {i gap : Nat} {e : Failure} (h : (c.cross i gap).1 = .error e) :
    e = .ended := by
  unfold cross at h
  split at h
  · contradiction
  · exact (Except.error.inj h).symm

theorem change_of_error {edit : Edit} {edited : Nat → Circle α} {e : Failure}
    (h : (c.change edit edited).1 = .error e) : e = .notMoved edit true := by
  unfold change at h
  split at h
  · contradiction
  · exact (Except.error.inj h).symm

/-- A gesture fails only at the end or for want of an element to edit. -/
theorem respond_of_error {g : Gesture α} {e : Failure} (h : (c.respond g).1 = .error e) :
    e = .ended ∨ ∃ edit, e = .notMoved edit true := by
  match g with
  | .call .next | .call .previous => exact .inl (cross_of_error h)
  | .call (.set _) | .call .remove => exact .inr ⟨_, change_of_error h⟩
  | .call .hasNext | .call .hasPrevious | .call (.add _) | .nextIndex | .previousIndex
  | .reset => contradiction

theorem items_cross (i gap : Nat) : (c.cross i gap).2.items = c.items := by
  unfold cross
  split <;> rfl

/-- The elements are as many more as a gesture made them. -/
theorem length_respond (hvalid : c.Valid) (g : Gesture α) :
    ((c.respond g).2.items.length : Int) = c.items.length + g.growth (c.respond g).1 := by
  match g with
  | .call .next =>
      show ((c.cross _ _).2.items.length : Int) = c.items.length + 0
      rw [items_cross, Int.add_zero]
  | .call .previous =>
      show ((c.cross _ _).2.items.length : Int) = c.items.length + 0
      rw [items_cross, Int.add_zero]
  | .call .hasNext | .call .hasPrevious | .nextIndex | .previousIndex | .reset =>
      exact (Int.add_zero _).symm
  | .call (.add x) =>
      have hle := hvalid.gap_le
      show ((c.items.take c.gap ++ x :: c.items.drop c.gap).length : Int) = c.items.length + 1
      rw [List.length_append, List.length_cons, List.length_take_of_le hle, List.length_drop]
      omega
  | .call (.set x) =>
      match hi : c.touched with
      | none =>
          rw [respond, change_of_untouched hi]
          exact (Int.add_zero _).symm
      | some i =>
          rw [respond, change_of_touched hi]
          show ((c.items.set i x).length : Int) = c.items.length + 0
          rw [List.length_set, Int.add_zero]
  | .call .remove =>
      match hi : c.touched with
      | none =>
          rw [respond, change_of_untouched hi]
          exact (Int.add_zero _).symm
      | some i =>
          have hlt := hvalid.touched_lt i hi
          rw [respond, change_of_touched hi]
          show ((c.items.eraseIdx i).length : Int) = c.items.length + -1
          rw [List.length_eraseIdx_of_lt hlt]
          omega

end Circle

namespace ListRing

variable {self : Field σ ListRing} {list : Field σ (List α)} {s : σ}

/-- The list ring is one whose gap lies in a circle of the elements that it expects. -/
def Fits (r : ListRing) : Prop :=
  ∃ gap touched, gap ≤ r.expected ∧ (∀ i, touched = some i → i < r.expected)
    ∧ r.cursor = { position := .plain gap, last := touched.map .plain }

theorem fits_ring {c : Circle α} (h : c.Valid) (turns : Nat) : (c.ring turns).Fits :=
  ⟨c.gap, c.touched, h.gap_le, h.touched_lt, rfl⟩

/-- A list ring that fits goes round any list of the size that it expects. -/
theorem Fits.shown (h : (self.get s).Fits) (hlen : (list.get s).length = (self.get s).expected) :
    ∃ c, Circle.Shown self list c (self.get s).turns s := by
  obtain ⟨gap, touched, hgap, htouched, hcursor⟩ := h
  rw [← hlen] at hgap htouched
  refine ⟨{ items := list.get s, gap := gap, touched := touched }, rfl, ?_, ⟨hgap, htouched⟩⟩
  unfold Circle.ring Circle.cursor
  rw [← hcursor, hlen]

theorem ask_of_resized (hne : (list.get s).length ≠ (self.get s).expected) {g : Gesture α}
    (hg : g ≠ .reset) :
    g.ask (twoWay self (.ofList list)) (reset self) s
      = .failure (.resized .list (self.get s).expected (list.get s).length) s := by
  have hcheck : check self (.ofList list) s
      = .failure (.resized .list (self.get s).expected (list.get s).length) s :=
    checkSize_of_ne rfl hne
  match g with
  | .reset => contradiction
  | .nextIndex | .previousIndex =>
      simp only [Gesture.ask, twoWay, nextIndex, previousIndex, Act.bind_apply, hcheck]
  | .call .next | .call .previous | .call .hasNext | .call .hasPrevious | .call (.add _)
  | .call (.set _) | .call .remove =>
      simp only [Gesture.ask, Call.ask, twoWay, next, previous, hasNext, hasPrevious, add, set,
        remove, Act.bind_apply, hcheck]

/-- A gesture on a list ring that fits is guarded, and leaves a list ring that fits and expects
what the gesture made of the list. -/
theorem ask_fits (hbeside : self.Beside list) (h : (self.get s).Fits) {g : Gesture α}
    (hg : g ≠ .reset) :
    ∃ r ring xs, g.ask (twoWay self (.ofList list)) (reset self) s
        = .of r (self.set ring (list.set xs s))
      ∧ Guarded (list.get s).length (self.get s).expected r s (self.set ring (list.set xs s))
      ∧ ring.Fits
      ∧ (ring.expected : Int) = (self.get s).expected + g.growth r := by
  by_cases hlen : (list.get s).length = (self.get s).expected
  · obtain ⟨c, hc⟩ := h.shown hlen
    obtain ⟨turns, s', hask, rfl, hvalid, -⟩ := ask_respond hbeside hc g
    refine ⟨_, _, _, hask, ?_, fits_ring hvalid turns, ?_⟩
    · refine guarded_of_fitting (congrArg _ hlen) ?_ _ _
      intro e he
      obtain hended | ⟨edit, hrefused⟩ := (Circle.respond_of_error he)
      · exact .inl hended
      · exact .inr ⟨_, _, hrefused⟩
    · have hless := Circle.length_respond hc.valid g
      rw [← hlen, hc.list_get]
      exact hless
  · refine ⟨.error (.resized .list (self.get s).expected (list.get s).length), self.get s,
      list.get s, ?_, ?_, h, ?_⟩
    · rw [hbeside.lawful_other.set_get, hbeside.lawful.set_get]
      exact ask_of_resized hlen hg
    · rw [hbeside.lawful_other.set_get, hbeside.lawful.set_get]
      exact guarded_of_resized hlen _ _
    · rw [Gesture.growth_of_error, Int.add_zero]

/-- A reset asks for nothing and leaves a list ring that fits. -/
theorem fits_reset (r : ListRing) : Fits { r with cursor := {}, turns := r.turns + 1 } :=
  ⟨0, none, Nat.zero_le _, fun _ h => by contradiction, rfl⟩

end ListRing

/-! ## §4. The rink. -/

/-- A list, and the rings and list rings that go round it. -/
structure Rink (α : Type) where
  items : List α
  rings : Nat → Ring
  listRings : Nat → ListRing

/-- One of those that go round. -/
inductive Skater where
  | oneWay (i : Nat)
  | twoWay (i : Nat)
  deriving Repr, DecidableEq

namespace Rink

/-- The list. -/
def list : Field (Rink α) (List α) where
  get := Rink.items
  set xs k := { k with items := xs }

/-- A ring. -/
def ring (i : Nat) : Field (Rink α) Ring where
  get k := k.rings i
  set r k := { k with rings := Function.update k.rings i r }

/-- A list ring. -/
def listRing (i : Nat) : Field (Rink α) ListRing where
  get k := k.listRings i
  set r k := { k with listRings := Function.update k.listRings i r }

/-- The number of elements that one of those that go round expects. -/
def expected (k : Rink α) : Skater → Nat
  | .oneWay i => (k.rings i).expected
  | .twoWay i => (k.listRings i).expected

/-- One of those that go round fits. -/
def Fits (k : Rink α) : Skater → Prop
  | .oneWay i => (k.rings i).Fits
  | .twoWay i => (k.listRings i).Fits

/-- A new one comes in the place of another. -/
def enter (k : Rink α) : Skater → Rink α
  | .oneWay i => (ring i).set { expected := k.items.length } k
  | .twoWay i => (listRing i).set { expected := k.items.length } k

theorem lawful_list : (list (α := α)).Lawful := ⟨fun _ _ => rfl, fun _ => rfl, fun _ _ _ => rfl⟩

theorem ring_beside_list (i : Nat) : (ring (α := α) i).Beside list where
  lawful := {
    get_set := fun r k => by
      show Function.update k.rings i r i = r
      rw [Function.update_self]
    set_get := fun k => congrArg (fun rings => { k with rings := rings })
      (Function.update_eq_self i k.rings)
    set_set := fun r r' k => congrArg (fun rings => { k with rings := rings })
      (Function.update_idem r' r k.rings) }
  lawful_other := lawful_list
  apart := ⟨fun _ _ => rfl, fun _ _ => rfl⟩

theorem listRing_beside_list (i : Nat) : (listRing (α := α) i).Beside list where
  lawful := {
    get_set := fun r k => by
      show Function.update k.listRings i r i = r
      rw [Function.update_self]
    set_get := fun k => congrArg (fun rings => { k with listRings := rings })
      (Function.update_eq_self i k.listRings)
    set_set := fun r r' k => congrArg (fun rings => { k with listRings := rings })
      (Function.update_idem r' r k.listRings) }
  lawful_other := lawful_list
  apart := ⟨fun _ _ => rfl, fun _ _ => rfl⟩

/-! ### Calls. -/

/-- A call of one of those that go round. -/
inductive Skate (α : Type) where
  | spin (i : Nat) (turn : Spin)
  | gesture (i : Nat) (g : Gesture α)

namespace Skate

/-- Whose call it is. -/
def skater : Skate α → Skater
  | spin i _ => .oneWay i
  | gesture i _ => .twoWay i

/-- Make the call. -/
def ask : Skate α → Act (Rink α) (Reply α)
  | spin i turn => do
      return .answer (← turn.ask (Ring.forward (ring i) (.ofList list)) (Ring.reset (ring i)))
  | gesture i g => g.ask (ListRing.twoWay (listRing i) (.ofList list)) (ListRing.reset (listRing i))

/-- Whether it sends the ring back to the front. -/
def isReset : Skate α → Bool
  | spin _ .reset | gesture _ .reset => true
  | _ => false

/-- The number of elements by which it made the list longer. -/
def growth : Skate α → Except Failure (Reply α) → Int
  | spin _ turn, r => turn.growth r
  | gesture _ g, r => g.growth r

theorem isReset_gesture (i : Nat) {g : Gesture α} (hg : g ≠ .reset) :
    (gesture i g).isReset = false := by
  match g with
  | .reset => contradiction
  | .call _ | .nextIndex | .previousIndex => rfl

end Skate

/-- What happens on a rink: an edit of the list from outside, a newcomer, or a call. -/
inductive Event (α : Type) where
  | edit (f : List α → List α)
  | enter (w : Skater)
  | call (c : Skate α)

/-- What a call comes to, if `due` elements are due: a reset succeeds and leaves the list alone,
all other calls are guarded. -/
def Comes (c : Skate α) (due : Int) (k : Rink α) (r : Except Failure (Reply α)) (k' : Rink α) :
    Prop :=
  if c.isReset then r = .ok (.answer .done) ∧ k'.items = k.items
  else Guarded k.items.length due r k k'

/-- A run in which every call comes to what it should; `due` is kept beside it. -/
def Skates : List (Event α) → (Skater → Int) → Rink α → Prop
  | [], _, _ => True
  | .edit f :: events, due, k => Skates events due { k with items := f k.items }
  | .enter w :: events, due, k =>
      Skates events (Function.update due w k.items.length) (k.enter w)
  | .call c :: events, due, k =>
      ∃ r k', c.ask k = .of r k' ∧ Comes c (due c.skater) k r k'
        ∧ Skates events (Function.update due c.skater (due c.skater + c.growth r)) k'

/-! ### Every run. -/

/-- All that go round fit, and expect what is due. -/
def Keeps (k : Rink α) (due : Skater → Int) : Prop :=
  ∀ w, k.Fits w ∧ due w = k.expected w

variable {k : Rink α} {due : Skater → Int}

theorem keeps_edit (h : k.Keeps due) (xs : List α) : Keeps { k with items := xs } due := by
  intro w
  match w with
  | .oneWay i => exact h (.oneWay i)
  | .twoWay i => exact h (.twoWay i)

/-- To write one of those that go round, together with what it is due, touches no other. -/
theorem keeps_ring (h : k.Keeps due) (i : Nat) {r : Ring} (hr : r.Fits) (xs : List α) {n : Int}
    (hn : n = r.expected) :
    Keeps ((ring i).set r (list.set xs k)) (Function.update due (.oneWay i) n) := by
  intro w
  by_cases hw : w = .oneWay i
  · subst hw
    show Ring.Fits (Function.update k.rings i r i)
      ∧ Function.update due (.oneWay i) n (.oneWay i) = (Function.update k.rings i r i).expected
    rw [Function.update_self, Function.update_self]
    exact ⟨hr, hn⟩
  · rw [Function.update_of_ne hw]
    cases w with
    | twoWay j => exact h (.twoWay j)
    | oneWay j =>
        have hj : j ≠ i := fun hji => hw (congrArg _ hji)
        show Ring.Fits (Function.update k.rings i r j)
          ∧ due (.oneWay j) = (Function.update k.rings i r j).expected
        rw [Function.update_of_ne hj]
        exact h (.oneWay j)

theorem keeps_listRing (h : k.Keeps due) (i : Nat) {r : ListRing} (hr : r.Fits) (xs : List α)
    {n : Int} (hn : n = r.expected) :
    Keeps ((listRing i).set r (list.set xs k)) (Function.update due (.twoWay i) n) := by
  intro w
  by_cases hw : w = .twoWay i
  · subst hw
    show ListRing.Fits (Function.update k.listRings i r i)
      ∧ Function.update due (.twoWay i) n (.twoWay i)
        = (Function.update k.listRings i r i).expected
    rw [Function.update_self, Function.update_self]
    exact ⟨hr, hn⟩
  · rw [Function.update_of_ne hw]
    cases w with
    | oneWay j => exact h (.oneWay j)
    | twoWay j =>
        have hj : j ≠ i := fun hji => hw (congrArg _ hji)
        show ListRing.Fits (Function.update k.listRings i r j)
          ∧ due (.twoWay j) = (Function.update k.listRings i r j).expected
        rw [Function.update_of_ne hj]
        exact h (.twoWay j)

theorem keeps_enter (h : k.Keeps due) (w : Skater) :
    (k.enter w).Keeps (Function.update due w k.items.length) := by
  cases w with
  | oneWay i => exact keeps_ring h i ⟨.start, trivial, rfl⟩ k.items rfl
  | twoWay i =>
      exact keeps_listRing h i ⟨0, none, Nat.zero_le _, fun _ hj => by contradiction, rfl⟩
        k.items rfl

/-- A call of a ring comes to what it should, and all keep fitting. -/
theorem spin_comes (h : k.Keeps due) (i : Nat) (turn : Spin) :
    ∃ r k', (Skate.spin i turn).ask k = .of r k'
      ∧ Comes (.spin i turn) (due (.oneWay i)) k r k'
      ∧ k'.Keeps (Function.update due (.oneWay i) (due (.oneWay i) + turn.growth r)) := by
  obtain ⟨hfits, hdue⟩ := h (.oneWay i)
  match turn with
  | .reset =>
      refine ⟨.ok (.answer .done), _, rfl, ⟨rfl, rfl⟩, ?_⟩
      exact keeps_ring h i (Ring.fits_reset (k.rings i)) k.items ((Int.add_zero _).trans hdue)
  | .pull p =>
      obtain ⟨r, r', xs, hask, hguarded, hfits', hexpected⟩ :=
        Ring.ask_fits (ring_beside_list i) hfits p
      refine ⟨_, _, Act.map_of Reply.answer hask, ?_, keeps_ring h i hfits' xs ?_⟩
      · rw [hdue]
        exact hguarded.map Reply.answer
      · rw [Spin.growth_map, hexpected, hdue]
        rfl

/-- A gesture on a list ring comes to what it should, and all keep fitting. -/
theorem gesture_comes (h : k.Keeps due) (i : Nat) (g : Gesture α) :
    ∃ r k', (Skate.gesture i g).ask k = .of r k'
      ∧ Comes (.gesture i g) (due (.twoWay i)) k r k'
      ∧ k'.Keeps (Function.update due (.twoWay i) (due (.twoWay i) + g.growth r)) := by
  obtain ⟨hfits, hdue⟩ := h (.twoWay i)
  by_cases hg : g = .reset
  · subst hg
    refine ⟨.ok (.answer .done), _, rfl, ⟨rfl, rfl⟩, ?_⟩
    exact keeps_listRing h i (ListRing.fits_reset (k.listRings i)) k.items
      ((Int.add_zero _).trans hdue)
  · obtain ⟨r, r', xs, hask, hguarded, hfits', hexpected⟩ :=
      ListRing.ask_fits (listRing_beside_list i) hfits hg
    refine ⟨_, _, hask, ?_, keeps_listRing h i hfits' xs ?_⟩
    · rw [Comes, Skate.isReset_gesture i hg, hdue]
      exact hguarded
    · rw [hexpected, hdue]
      rfl

theorem skates_of_keeps (h : k.Keeps due) (events : List (Event α)) : Skates events due k := by
  -- The induction is on the events; each leaves all that go round fitting.
  induction events generalizing k due with
  | nil => trivial
  | cons event events ih =>
      cases event with
      | edit f => exact ih (keeps_edit h (f k.items))
      | enter w => exact ih (keeps_enter h w)
      | call c =>
          have hcomes : ∃ r k', c.ask k = .of r k' ∧ Comes c (due c.skater) k r k'
              ∧ k'.Keeps (Function.update due c.skater (due c.skater + c.growth r)) := by
            cases c with
            | spin i turn => exact spin_comes h i turn
            | gesture i g => exact gesture_comes h i g
          obtain ⟨r, k', hask, hcall, hkeeps⟩ := hcomes
          exact ⟨r, k', hask, hcall, ih hkeeps⟩

/-- The rink on which all go round a list from the start on. -/
def start (xs : List α) : Rink α where
  items := xs
  rings _ := { expected := xs.length }
  listRings _ := { expected := xs.length }

/-- **Whatever is done to the list in between, a call reports it or does what it should.** -/
theorem skates_safely (xs : List α) (events : List (Event α)) :
    Skates events (fun _ => xs.length) (start xs) := by
  apply skates_of_keeps
  intro w
  match w with
  | .oneWay i => exact ⟨⟨.start, trivial, rfl⟩, rfl⟩
  | .twoWay i => exact ⟨⟨0, none, Nat.zero_le _, fun _ hj => by contradiction, rfl⟩, rfl⟩

end Rink

end Cursors
