/-
  Cursors.Proofs.Window.Pane
  ──────────────────────────
  **A WINDOW IS A CURSOR IN A PART OF THE CONTAINER.**

  A pane is a container of fixed size with a window on it, and a log of the
  positions at which the container is read or written.  The container falls
  into three parts, of which the window has the middle one:

      pre ++ z.items ++ post

  and moves in it as a cursor in a list of its own, whose zipper is `z`; a
  position in the container is an index in the list, plus the start of the
  window.
-/
import Cursors.Primitive.Window
import Cursors.Proofs.After
import Cursors.Proofs.Gesture

namespace Cursors

variable {σ α : Type}

/-! ## §1. Panes. -/

/-- The container with a log of the positions at which it is read or edited. -/
def Sequence.logged (log : Field σ (List Int)) (items : Sequence σ α) : Sequence σ α where
  length := items.length
  get p := do
    log.modify (· ++ [p.toInt])
    items.get p
  set p x := do
    log.modify (· ++ [p.toInt])
    items.set p x
  delete p := do
    log.modify (· ++ [p.toInt])
    items.delete p
  insert p x := do
    log.modify (· ++ [p.toInt])
    items.insert p x

/-- A container, the positions at which it was read or edited, and a window on it. -/
structure Pane (α : Type) where
  items : List α
  log : List Int := []
  view : ListWindow
  deriving Repr, DecidableEq

namespace Pane

/-- The container. -/
def itemsField : Field (Pane α) (List α) where
  get := Pane.items
  set items p := { p with items }

/-- The log. -/
def logField : Field (Pane α) (List Int) where
  get := Pane.log
  set log p := { p with log }

/-- The window. -/
def viewField : Field (Pane α) ListWindow where
  get := Pane.view
  set view p := { p with view }

/-- The container, with its log. -/
def cells : Sequence (Pane α) α := .logged logField (.ofList itemsField)

/-- The window as a source. -/
def source (owner : String) : TwoWay (Pane α) α := ListWindow.twoWay owner viewField cells

/-- Go back to the start of the window. -/
def rewind : Act (Pane α) Unit := ListWindow.reset viewField

/-- A new window on a list. -/
def fresh (xs : List α) (start stop : Place) : Pane α where
  items := xs
  view := { window := .fresh start stop }

/-- The pane after a look at a position. -/
def looked (p : Pane α) (i : Int) : Pane α := { p with log := p.log ++ [i] }

/-- The pane after the window moved. -/
def movedTo (p : Pane α) (index : Place) (last : Option Place) : Pane α :=
  { p with view := { window := { p.view.window with index }, last } }

/-- The window of the pane, from `n` up to `m`, shows the zipper between `pre` and `post`. -/
structure Shows (p : Pane α) (n m : Nat) (pre post : List α) (z : Zipper α) : Prop where
  items_eq : p.items = pre ++ z.items ++ post
  length_pre : pre.length = n
  length_eq : n + z.items.length = m
  start : p.view.window.start.StandsAt n m
  stop_eq : p.view.window.stop.toInt = m
  index : p.view.window.index.StandsAt (n + z.back.length) m
  last : Option.Rel (fun q i => Place.StandsAt q (n + i) m) p.view.last z.touched

variable {p : Pane α} {n m i : Nat} {pre post : List α} {z : Zipper α} {x : α}

theorem shows_fresh {xs : List α} {start stop : Place} (hstart : start.StandsAt n m)
    (hstop : stop.toInt = m) (hm : m ≤ xs.length) :
    (fresh xs start stop).Shows n m (xs.take n) (xs.drop m) (.ofList ((xs.take m).drop n) 0) where
  items_eq := by
    have hn := hstart.le
    rw [Zipper.items_ofList]
    show xs = _
    have htake : xs.take n = (xs.take m).take n := by rw [List.take_take, Nat.min_eq_left hn]
    rw [htake, List.take_append_drop, List.take_append_drop]
  length_pre := by
    have hn := hstart.le
    rw [List.length_take]
    omega
  length_eq := by
    have hn := hstart.le
    rw [Zipper.items_ofList, List.length_drop, List.length_take]
    omega
  start := hstart
  stop_eq := hstop
  index := hstart
  last := .none

/-! ### The element at a position. -/

theorem Shows.getElem? (h : p.Shows n m pre post z) (hi : i < z.items.length) :
    p.items[n + i]? = z.items[i]? := by
  rw [h.items_eq, List.append_assoc, List.getElem?_append_right (by rw [h.length_pre]; omega),
    h.length_pre, Nat.add_sub_cancel_left, List.getElem?_append_left hi]

theorem Shows.set_items (h : p.Shows n m pre post z) (hi : i < z.items.length) (x : α) :
    p.items.set (n + i) x = pre ++ z.items.set i x ++ post := by
  rw [h.items_eq, List.append_assoc, List.set_append_right _ _ (by rw [h.length_pre]; omega),
    h.length_pre, Nat.add_sub_cancel_left, List.set_append_left _ _ hi, List.append_assoc]

theorem get_apply {q : Place} {bound : Nat} (hq : q.StandsAt i bound) (hx : p.items[i]? = some x) :
    cells.get q p = .value x (p.looked i) := by
  have hget : (Sequence.ofList itemsField).get q (p.looked q.toInt)
      = .value x (p.looked q.toInt) := Cursor.get_ofList_apply hq hx
  rw [← hq.toInt_eq]
  exact hget

theorem set_apply {q : Place} {bound : Nat} (hq : q.StandsAt i bound) (hi : i < p.items.length)
    (x : α) : cells.set q x p = .value () { p.looked i with items := p.items.set i x } := by
  have hset : (Sequence.ofList itemsField).set q x (p.looked q.toInt)
      = .value () { p.looked q.toInt with items := p.items.set i x } := by
    have hindex : Place.index? (itemsField.get (p.looked q.toInt)).length q.toInt = some i :=
      hq.index? hi
    simp only [Sequence.ofList, Act.bind_apply, Field.read_apply, hindex, Field.modify_apply]
    rfl
  rw [← hq.toInt_eq]
  exact hset

/-! ## §2. Moves. -/

theorem Shows.looked (h : p.Shows n m pre post z) (i : Int) :
    (p.looked i).Shows n m pre post z := ⟨h.1, h.2, h.3, h.4, h.5, h.6, h.7⟩

/-- Where a window moved to is all that counts of a move. -/
theorem Shows.movedTo (h : p.Shows n m pre post z) {z' : Zipper α} (hitems : z'.items = z.items)
    {index : Place} (hindex : index.StandsAt (n + z'.back.length) m) {last : Option Place}
    (hlast : Option.Rel (fun q i => Place.StandsAt q (n + i) m) last z'.touched) :
    (p.movedTo index last).Shows n m pre post z' where
  items_eq := by
    rw [hitems]
    exact h.items_eq
  length_pre := h.length_pre
  length_eq := by
    rw [hitems]
    exact h.length_eq
  start := h.start
  stop_eq := h.stop_eq
  index := hindex
  last := hlast

theorem next_of_front (h : p.Shows n m pre post z) {rest : List α} (hx : z.front = x :: rest) :
    ∃ index last, ListWindow.next viewField cells p
        = .value x ((p.looked ((n + z.back.length : Nat) : Int)).movedTo index last)
      ∧ ((p.looked ((n + z.back.length : Nat) : Int)).movedTo index last).Shows n m pre post
        (z.cross .forward 1) := by
  have hlen := h.length_eq
  rw [z.length_items, hx, List.length_cons] at hlen
  have hcell : p.items[n + z.back.length]? = some x := by
    rw [h.getElem? (by rw [z.length_items, hx, List.length_cons]; omega)]
    simp [Zipper.items, hx]
  have hmore : ¬ p.view.window.index.toInt ≥ p.view.window.stop.toInt := by
    rw [h.index.toInt_eq, h.stop_eq]
    omega
  have hindex : p.view.window.index.following.StandsAt (n + z.back.length + 1) m :=
    h.index.following (by omega)
  refine ⟨p.view.window.index.following, some p.view.window.index.following.preceding, ?_,
    (h.looked _).movedTo (z.items_cross .forward 1) ?_ ?_⟩
  · have hmore' : ¬ ((ListWindow.windowField viewField).get p).index.toInt
        ≥ ((ListWindow.windowField viewField).get p).stop.toInt := hmore
    have hget : cells.get ((ListWindow.windowField viewField).get p).index p
        = .value x (p.looked (n + z.back.length : Nat)) := get_apply h.index hcell
    simp only [ListWindow.next, Window.next, Act.bind_apply, Field.read_apply, if_neg hmore', hget,
      Field.modify_apply]
    rfl
  · simpa [Zipper.cross, hx, Nat.add_assoc, Nat.add_comm] using hindex
  · simpa [Zipper.cross, Zipper.touched, hx] using Option.Rel.some hindex.preceding

theorem previous_of_back (h : p.Shows n m pre post z) {rest : List α} (hx : z.back = x :: rest) :
    ∃ index last, ListWindow.previous viewField cells p
        = .value x ((p.movedTo index last).looked ((n + rest.length : Nat) : Int))
      ∧ ((p.movedTo index last).looked ((n + rest.length : Nat) : Int)).Shows n m pre post
        (z.cross .backward 1) := by
  have hlen := h.length_eq
  rw [z.length_items, hx, List.length_cons] at hlen
  have hpos : p.view.window.index.StandsAt (n + rest.length + 1) m := by
    simpa [hx, Nat.add_assoc] using h.index
  have hindex := hpos.preceding
  have hcell : p.items[n + rest.length]? = some x := by
    rw [h.getElem? (by rw [z.length_items, hx, List.length_cons]; omega)]
    simp [Zipper.items, hx]
  have hmore : ¬ p.view.window.index.toInt ≤ p.view.window.start.toInt := by
    rw [hpos.toInt_eq, h.start.toInt_eq]
    omega
  have hmoved : (p.movedTo p.view.window.index.preceding
      (some p.view.window.index.preceding)).Shows n m pre post (z.cross .backward 1) := by
    refine h.movedTo (z.items_cross .backward 1) ?_ ?_
    · simpa [Zipper.cross, hx] using hindex
    · simpa [Zipper.cross, Zipper.touched, hx] using Option.Rel.some hindex
  refine ⟨_, _, ?_, hmoved.looked _⟩
  have hmore' : ¬ (viewField.get p).window.index.toInt ≤ (viewField.get p).window.start.toInt :=
    hmore
  simp only [ListWindow.previous, Act.bind_apply, Field.read_apply, if_neg hmore']
  exact get_apply (p := p.movedTo _ _) hindex hcell

/-- A step past either end of the window fails and does nothing. -/
theorem step_of_toward_nil (owner : String) (h : p.Shows n m pre post z) {d : Direction}
    (hd : z.toward d = []) : (source owner).step d p = .failure .ended p := by
  have hlen := h.length_eq
  rw [z.length_items] at hlen
  cases d
  · have hf : z.front = [] := hd
    rw [hf, List.length_nil] at hlen
    have hend : ((ListWindow.windowField viewField).get p).index.toInt
        ≥ ((ListWindow.windowField viewField).get p).stop.toInt := by
      show p.view.window.index.toInt ≥ p.view.window.stop.toInt
      rw [h.index.toInt_eq, h.stop_eq]
      omega
    show ListWindow.next viewField cells p = _
    simp only [ListWindow.next, Window.next, Act.bind_apply, Field.read_apply, if_pos hend,
      Act.fail_apply]
  · have hb : z.back = [] := hd
    have hstart : (viewField.get p).window.index.toInt ≤ (viewField.get p).window.start.toInt := by
      show p.view.window.index.toInt ≤ p.view.window.start.toInt
      rw [h.index.toInt_eq, h.start.toInt_eq, hb, List.length_nil]
      omega
    show ListWindow.previous viewField cells p = _
    simp only [ListWindow.previous, Act.bind_apply, Field.read_apply, if_pos hstart, Act.fail_apply]

/-- A step crosses the nearest element, and looks at its position only. -/
theorem step_of_toward_cons (owner : String) (h : p.Shows n m pre post z) {d : Direction}
    {rest : List α} (hx : z.toward d = x :: rest) :
    ∃ p' i, (source owner).step d p = .value x p' ∧ p'.Shows n m pre post (z.cross d 1)
      ∧ (z.cross d 1).touched = some i ∧ p'.log = p.log ++ [((n + i : Nat) : Int)] := by
  cases d
  · have hf : z.front = x :: rest := hx
    obtain ⟨index, last, hnext, h'⟩ := next_of_front h hf
    exact ⟨_, z.back.length, hnext, h', by simp [Zipper.cross, Zipper.touched, hf], rfl⟩
  · have hb : z.back = x :: rest := hx
    obtain ⟨index, last, hprevious, h'⟩ := previous_of_back h hb
    exact ⟨_, rest.length, hprevious, h', by simp [Zipper.cross, Zipper.touched, hb], rfl⟩

theorem hasMore_apply (owner : String) (h : p.Shows n m pre post z) (d : Direction) :
    (source owner).hasMore d p = .value (!(z.toward d).isEmpty) p := by
  have hlen := h.length_eq
  rw [z.length_items] at hlen
  cases d
  · show Outcome.value (decide (p.view.window.index.toInt < p.view.window.stop.toInt)) p = _
    rw [h.index.toInt_eq, h.stop_eq]
    cases hf : z.front with
    | nil =>
        rw [hf, List.length_nil] at hlen
        simp only [Zipper.toward, hf, List.isEmpty_nil, Bool.not_true, Outcome.value.injEq,
          decide_eq_false_iff_not, and_true]
        omega
    | cons x rest =>
        rw [hf, List.length_cons] at hlen
        simp only [Zipper.toward, hf, List.isEmpty_cons, Bool.not_false, Outcome.value.injEq,
          decide_eq_true_eq, and_true]
        omega
  · show Outcome.value (decide (p.view.window.index.toInt > p.view.window.start.toInt)) p = _
    rw [h.index.toInt_eq, h.start.toInt_eq]
    cases hb : z.back with
    | nil => simp [Zipper.toward, hb]
    | cons x rest =>
        simp only [Zipper.toward, hb, List.length_cons, List.isEmpty_cons, Bool.not_false,
          Outcome.value.injEq, decide_eq_true_eq, and_true]
        omega

theorem nextIndex_apply (owner : String) (h : p.Shows n m pre post z) :
    (source owner).nextIndex p = .value (z.back.length : Int) p := by
  show Outcome.value (p.view.window.index.toInt - p.view.window.start.toInt) p = _
  rw [h.index.toInt_eq, h.start.toInt_eq]
  congr 1
  omega

theorem previousIndex_apply (owner : String) (h : p.Shows n m pre post z) :
    (source owner).previousIndex p = .value ((z.back.length : Int) - 1) p := by
  show Outcome.value (p.view.window.index.toInt - p.view.window.start.toInt - 1) p = _
  rw [h.index.toInt_eq, h.start.toInt_eq]
  congr 1
  omega

/-! ## §3. Replacements. -/

theorem set_of_untouched (owner : String) (h : p.Shows n m pre post z) (hz : z.touched = none)
    (x : α) : (source owner).set x p = .failure (.notMoved .set true) p := by
  have hlast := h.last
  rw [hz] at hlast
  have hnone : (viewField.get p).last = none := by
    show p.view.last = none
    match p.view.last, hlast with
    | none, .none => rfl
  show ListWindow.set viewField cells x p = _
  simp only [ListWindow.set, Act.bind_apply, Field.read_apply, hnone, Option.filter_none,
    Act.fail_apply]

theorem set_of_touched (owner : String) (h : p.Shows n m pre post z) (hi : z.touched = some i)
    (x : α) :
    (source owner).set x p
        = .value () { p.looked ((n + i : Nat) : Int) with items := p.items.set (n + i) x }
      ∧ Shows { p.looked ((n + i : Nat) : Int) with items := p.items.set (n + i) x } n m pre post
        (z.replaced x) := by
  have hlt := z.touched_lt hi
  have hlast := h.last
  rw [hi] at hlast
  constructor
  · match hq : p.view.last, hlast with
    | some q, .some hpos =>
        have hsome : (viewField.get p).last.filter Place.fromFront = some q := by
          show p.view.last.filter Place.fromFront = some q
          rw [hq, Option.filter_some, if_pos hpos.fromFront]
        have hlength : n + i < p.items.length := by
          rw [h.items_eq, List.length_append, List.length_append, h.length_pre]
          omega
        show ListWindow.set viewField cells x p = _
        simp only [ListWindow.set, Act.bind_apply, Field.read_apply, hsome]
        exact set_apply hpos hlength x
  · exact {
      items_eq := by
        rw [Zipper.items_replaced hi]
        exact h.set_items hlt x
      length_pre := h.length_pre
      length_eq := by
        rw [z.length_replaced]
        exact h.length_eq
      start := h.start
      stop_eq := h.stop_eq
      index := by
        rw [z.length_back_replaced]
        exact h.index
      last := by
        rw [z.touched_replaced]
        exact h.last }

theorem rewind_apply (h : p.Shows n m pre post z) :
    rewind p = .value () (p.movedTo p.view.window.start none)
      ∧ (p.movedTo p.view.window.start none).Shows n m pre post z.rewound := by
  have hitems : z.rewound.items = z.items := rfl
  exact ⟨rfl, h.movedTo hitems h.start .none⟩

end Pane

/-! ## §4. Gestures. -/

/-- The gesture leaves the number of elements as it is. -/
def Gesture.keepsSize : Gesture α → Bool
  | .call .remove | .call (.add _) => false
  | _ => true

/-- What a gesture that keeps the size makes of a zipper, and the index of the element that it
reads or writes. -/
inductive Zipper.Reaches (z : Zipper α) :
    Gesture α → Except Failure (Reply α) → Zipper α → Option Nat → Prop where
  | moved {d : Direction} {x : α} {xs : List α} {i : Nat} (hx : z.toward d = x :: xs)
      (hi : (z.cross d 1).touched = some i) :
      Reaches z (.call (.step d)) (.ok (.answer (.element x))) (z.cross d 1) (some i)
  | replaced {x : α} {i : Nat} (hi : z.touched = some i) :
      Reaches z (.call (.set x)) (.ok (.answer .done)) (z.replaced x) (some i)
  | told {g : Gesture α} {reply : Reply α} (hreply : ∀ x, reply ≠ .answer (.element x))
      (hset : ∀ x, g ≠ .call (.set x)) (hreset : g ≠ .reset) : Reaches z g (.ok reply) z none
  | rewound : Reaches z .reset (.ok (.answer .done)) z.rewound none
  | failed {g : Gesture α} {e : Failure} (hreset : g ≠ .reset) : Reaches z g (.error e) z none

namespace Pane

variable {p : Pane α} {n m : Nat} {pre post : List α} {z : Zipper α}

/-- A gesture on the window is answered by the zipper, and looks at the element that it reaches
only. -/
def Responds (owner : String) (p : Pane α) (n m : Nat) (pre post : List α) (z : Zipper α)
    (g : Gesture α) : Prop :=
  ∃ p' reached, g.ask (source owner) rewind p = .of (z.respond g).1 p'
    ∧ p'.Shows n m pre post (z.respond g).2
    ∧ z.Reaches g (z.respond g).1 (z.respond g).2 reached
    ∧ p'.log = p.log ++ reached.toList.map fun i => ((n + i : Nat) : Int)

theorem responds_step (owner : String) (h : p.Shows n m pre post z) (d : Direction) :
    Responds owner p n m pre post z (.call (.step d)) := by
  have hrespond : z.respond (.call (.step d)) = z.move d := by cases d <;> rfl
  unfold Responds
  rw [hrespond]
  match hd : z.toward d with
  | [] =>
      have hof : (source owner).step d p = .of (.error .ended) p := step_of_toward_nil owner h hd
      rw [Zipper.move_of_toward_nil hd]
      exact ⟨p, none, Gesture.ask_call_of (Call.ask_step_of hof), h,
        .failed (fun hreset => nomatch hreset), (List.append_nil _).symm⟩
  | x :: rest =>
      obtain ⟨p', i, hstep, h', hi, hlog⟩ := step_of_toward_cons owner h hd
      have hof : (source owner).step d p = .of (.ok x) p' := hstep
      rw [Zipper.move_of_toward_cons hd]
      exact ⟨p', some i, Gesture.ask_call_of (Call.ask_step_of hof), h', .moved hd hi, hlog⟩

/-- A question is answered, and nothing is looked at. -/
theorem responds_told {owner : String} (h : p.Shows n m pre post z) {g : Gesture α}
    {reply : Reply α} (hask : g.ask (source owner) rewind p = .of (.ok reply) p)
    (hrespond : z.respond g = (.ok reply, z)) (hreply : ∀ x, reply ≠ .answer (.element x))
    (hset : ∀ x, g ≠ .call (.set x)) (hreset : g ≠ .reset) :
    Responds owner p n m pre post z g := by
  unfold Responds
  rw [hrespond]
  exact ⟨p, none, hask, h, .told hreply hset hreset, (List.append_nil _).symm⟩

theorem ask_respond (owner : String) (h : p.Shows n m pre post z) {g : Gesture α}
    (hsize : g.keepsSize = true) : Responds owner p n m pre post z g := by
  match g with
  | .call .next => exact responds_step owner h .forward
  | .call .previous => exact responds_step owner h .backward
  | .call .hasNext =>
      have hof : (source owner).hasMore .forward p = .of (.ok (!z.front.isEmpty)) p :=
        hasMore_apply owner h .forward
      exact responds_told h (Gesture.ask_call_of (Call.ask_hasMore_of hof)) rfl
        (by simp) (by simp) (by simp)
  | .call .hasPrevious =>
      have hof : (source owner).hasMore .backward p = .of (.ok (!z.back.isEmpty)) p :=
        hasMore_apply owner h .backward
      exact responds_told h (Gesture.ask_call_of (Call.ask_hasMore_of hof)) rfl
        (by simp) (by simp) (by simp)
  | .nextIndex =>
      exact responds_told h (Gesture.ask_nextIndex_of (nextIndex_apply owner h)) rfl
        (by simp) (by simp) (by simp)
  | .previousIndex =>
      exact responds_told h (Gesture.ask_previousIndex_of (previousIndex_apply owner h)) rfl
        (by simp) (by simp) (by simp)
  | .reset =>
      obtain ⟨hrewind, h'⟩ := rewind_apply h
      exact ⟨_, none, Gesture.ask_reset_of hrewind, h', .rewound, (List.append_nil _).symm⟩
  | .call (.set x) =>
      unfold Responds
      match hi : z.touched with
      | none =>
          have hof : (source owner).set x p = .of (.error (.notMoved .set true)) p :=
            set_of_untouched owner h hi x
          rw [Zipper.respond_set, Zipper.change_of_untouched hi]
          exact ⟨p, none, Gesture.ask_call_of (Call.ask_set_of hof), h,
            .failed (fun hreset => nomatch hreset), (List.append_nil _).symm⟩
      | some i =>
          obtain ⟨hset, h'⟩ := set_of_touched owner h hi x
          have hof : (source owner).set x p = .of (.ok ()) _ := hset
          rw [Zipper.respond_set, Zipper.change_of_touched hi]
          exact ⟨_, some i, Gesture.ask_call_of (Call.ask_set_of hof), h', .replaced hi, rfl⟩

end Pane

end Cursors
