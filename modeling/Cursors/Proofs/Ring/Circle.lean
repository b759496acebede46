/-
  Cursors.Proofs.Ring.Circle
  ──────────────────────────
  **A LIST RING IS A CIRCLE WITH ONE GAP.**

  A `Circle` is a list whose two ends are joined, and a gap in it.  Seen
  from the gap, it is `around`, and the calls are those of a circle:

      next      takes the first element of `around` to the end
      previous  takes the last one to the front
      add       puts an element at the end, just before the gap

  The seam, where the ends of the list are joined, shows in the indexes
  only.  A list ring, whose gap has two positions at the seam, responds as
  its circle does (`ListRing.ask_respond`), hence so does every run of
  calls (`Circle.simulates_circle`).
-/
import Cursors.Combinator.ListRing
import Cursors.Proofs.Gesture
import Cursors.Proofs.Ring.Round

namespace Cursors

variable {σ α : Type}

/-! ## §1. Circles. -/

/-- The elements from the seam on, the number of them before the gap, and the index of the one
crossed last.  The gap before all of them is the gap after all of them. -/
structure Circle (α : Type) where
  items : List α
  gap : Nat := 0
  touched : Option Nat := none
  deriving Repr, DecidableEq

namespace Circle

/-- The elements in their order from the gap on. -/
def around (c : Circle α) : List α := c.items.rotate c.gap

/-- The index of the element after the gap. -/
def upcoming (c : Circle α) : Nat := c.gap % c.items.length

/-- The index of the element before the gap. -/
def foregoing (c : Circle α) : Nat := (c.gap + c.items.length - 1) % c.items.length

/-- The circle with another gap, after the element at an index was crossed. -/
def moved (c : Circle α) (i gap : Nat) : Circle α := { c with gap := gap, touched := some i }

/-- Cross the element at an index, if there is one. -/
def cross (c : Circle α) (i gap : Nat) : Except Failure (Reply α) × Circle α :=
  match c.items[i]? with
  | some x => (.ok (.answer (.element x)), c.moved i gap)
  | none => (.error .ended, c)

/-- Edit the element crossed last, if there is one. -/
def change (c : Circle α) (edit : Edit) (edited : Nat → Circle α) :
    Except Failure (Reply α) × Circle α :=
  match c.touched with
  | some i => (.ok (.answer .done), edited i)
  | none => (.error (.notMoved edit true), c)

/-- The circle without the element at an index. -/
def without (c : Circle α) (i : Nat) : Circle α where
  items := c.items.eraseIdx i
  gap := if i < c.gap then c.gap - 1 else c.gap

/-- What a gesture answers, and where it leads. -/
def respond (c : Circle α) : Gesture α → Except Failure (Reply α) × Circle α
  | .call .next => c.cross c.upcoming (c.upcoming + 1)
  | .call .previous => c.cross c.foregoing c.foregoing
  | .call .hasNext | .call .hasPrevious => (.ok (.answer (.truth (!c.items.isEmpty))), c)
  | .call (.add x) =>
      (.ok (.answer .done),
        { items := c.items.take c.gap ++ x :: c.items.drop c.gap, gap := c.gap + 1 })
  | .call (.set x) => c.change .set fun i => { c with items := c.items.set i x }
  | .call .remove => c.change .remove c.without
  | .nextIndex => (.ok (.index ((c.gap : Int) % c.items.length)), c)
  | .previousIndex => (.ok (.index (((c.gap : Int) - 1) % c.items.length)), c)
  | .reset => (.ok (.answer .done), { items := c.items })

/-- The gap lies between elements, and the one crossed last is among them. -/
structure Valid (c : Circle α) : Prop where
  gap_le : c.gap ≤ c.items.length
  touched_lt : ∀ i, c.touched = some i → i < c.items.length

variable {c : Circle α}

theorem valid_fresh (xs : List α) : Valid { items := xs } := ⟨Nat.zero_le _, by simp⟩

theorem valid_moved {i gap : Nat} (hi : i < c.items.length) (hgap : gap ≤ c.items.length) :
    (c.moved i gap).Valid := by
  refine ⟨hgap, ?_⟩
  intro j hj
  exact Option.some.inj hj ▸ hi

theorem valid_add (h : c.Valid) (x : α) : (c.respond (.call (.add x))).2.Valid := by
  have hle := h.gap_le
  refine ⟨?_, fun i hi => by contradiction⟩
  show c.gap + 1 ≤ (c.items.take c.gap ++ x :: c.items.drop c.gap).length
  rw [List.length_append, List.length_cons, List.length_take_of_le hle]
  omega

theorem valid_set (h : c.Valid) (i : Nat) (x : α) :
    Valid { c with items := c.items.set i x } := by
  refine ⟨?_, ?_⟩
  · rw [List.length_set]
    exact h.gap_le
  · rw [List.length_set]
    exact h.touched_lt

theorem valid_without (h : c.Valid) {i : Nat} (hi : c.touched = some i) :
    (c.without i).Valid := by
  have hle := h.gap_le
  have hlt := h.touched_lt i hi
  refine ⟨?_, fun j hj => by contradiction⟩
  show (if i < c.gap then c.gap - 1 else c.gap) ≤ (c.items.eraseIdx i).length
  rw [List.length_eraseIdx_of_lt hlt]
  split <;> omega

/-! ## §2. The circle seen from the gap. -/

theorem upcoming_lt (h : 0 < c.items.length) : c.upcoming < c.items.length := Nat.mod_lt _ h

theorem foregoing_lt (h : 0 < c.items.length) : c.foregoing < c.items.length := Nat.mod_lt _ h

theorem length_around (c : Circle α) : c.around.length = c.items.length := List.length_rotate _ _

theorem cross_of_lt {i : Nat} (hi : i < c.items.length) (gap : Nat) :
    c.cross i gap
      = (.ok (.answer (.element c.items[i])), c.moved i gap) := by
  simp only [cross, List.getElem?_eq_getElem hi]

theorem cross_of_empty (h : c.items.length = 0) (i gap : Nat) :
    c.cross i gap = (.error .ended, c) := by
  have hnone : c.items[i]? = none := List.getElem?_eq_none (by omega)
  simp only [cross, hnone]

theorem change_of_touched {i : Nat} (h : c.touched = some i) (edit : Edit)
    (edited : Nat → Circle α) : c.change edit edited = (.ok (.answer .done), edited i) := by
  simp only [change, h]

theorem change_of_untouched (h : c.touched = none) (edit : Edit) (edited : Nat → Circle α) :
    c.change edit edited = (.error (.notMoved edit true), c) := by
  simp only [change, h]

/-- The element after the gap is the first one around. -/
theorem around_eq_cons (hlt : c.upcoming < c.items.length) :
    c.around = c.items[c.upcoming]
      :: (c.items.drop (c.upcoming + 1) ++ c.items.take c.upcoming) := by
  unfold around
  rw [← List.rotate_mod]
  show c.items.rotate c.upcoming = _
  rw [List.rotate_eq_drop_append_take (Nat.le_of_lt hlt), List.drop_eq_getElem_cons hlt,
    List.cons_append]

/-- The element before the gap is the last one around. -/
theorem around_eq_concat (hlt : c.foregoing < c.items.length) :
    c.around = (c.items.drop (c.foregoing + 1) ++ c.items.take c.foregoing)
      ++ [c.items[c.foregoing]] := by
  have hnext : (c.foregoing + 1) % c.items.length = c.gap % c.items.length := by
    unfold foregoing
    rw [Nat.mod_add_mod, Nat.sub_add_cancel (by omega), Nat.add_mod_right]
  unfold around
  rw [← List.rotate_mod, ← hnext, List.rotate_mod, List.rotate_eq_drop_append_take hlt,
    List.append_assoc, List.take_append_getElem]

theorem around_next (h : 0 < c.items.length) :
    ∃ x rest, c.around = x :: rest ∧ (c.respond (.call .next)).1 = .ok (.answer (.element x))
      ∧ (c.respond (.call .next)).2.around = rest ++ [x] := by
  have hlt := upcoming_lt h
  refine ⟨_, _, around_eq_cons hlt, ?_, ?_⟩
  · rw [respond, cross_of_lt hlt]
  · rw [respond, cross_of_lt hlt]
    show c.items.rotate (c.upcoming + 1) = _
    rw [List.rotate_eq_drop_append_take hlt, List.append_assoc, List.take_append_getElem]

theorem around_previous (h : 0 < c.items.length) :
    ∃ x rest, c.around = rest ++ [x]
      ∧ (c.respond (.call .previous)).1 = .ok (.answer (.element x))
      ∧ (c.respond (.call .previous)).2.around = x :: rest := by
  have hlt := foregoing_lt h
  refine ⟨_, _, around_eq_concat hlt, ?_, ?_⟩
  · rw [respond, cross_of_lt hlt]
  · rw [respond, cross_of_lt hlt]
    show c.items.rotate c.foregoing = _
    rw [List.rotate_eq_drop_append_take (Nat.le_of_lt hlt), List.drop_eq_getElem_cons hlt,
      List.cons_append]

theorem around_add (hvalid : c.Valid) (x : α) :
    (c.respond (.call (.add x))).2.around = c.around ++ [x] := by
  have hle := hvalid.gap_le
  have hlen : (c.items.take c.gap ++ [x]).length = c.gap + 1 := by
    rw [List.length_append, List.length_take_of_le hle]
    rfl
  show (c.items.take c.gap ++ x :: c.items.drop c.gap).rotate (c.gap + 1) = _
  unfold around
  rw [List.rotate_eq_drop_append_take hle, ← hlen, List.append_cons, List.rotate_append_length_eq,
    List.append_assoc]

/-- The indexes are those of the elements on either side of the gap. -/
theorem upcoming_eq_emod (c : Circle α) : (c.upcoming : Int) = (c.gap : Int) % c.items.length :=
  Int.natCast_emod _ _

theorem foregoing_eq_emod (h : 0 < c.items.length) :
    (c.foregoing : Int) = ((c.gap : Int) - 1) % c.items.length := by
  have hsub : ((c.gap + c.items.length - 1 : Nat) : Int)
      = (c.gap : Int) - 1 + c.items.length := by omega
  unfold foregoing
  rw [Int.natCast_emod, hsub, Int.add_emod_right]

/-! ### The laws of a circle. -/

/-- What the calls of a circle have to do with each other. -/
structure Laws (c : Circle α) : Prop where
  /-- To move back again returns the same element. -/
  next_previous : ∀ x, (c.respond (.call .next)).1 = .ok (.answer (.element x)) →
    ((c.respond (.call .next)).2.respond (.call .previous)).1 = .ok (.answer (.element x))
  previous_next : ∀ x, (c.respond (.call .previous)).1 = .ok (.answer (.element x)) →
    ((c.respond (.call .previous)).2.respond (.call .next)).1 = .ok (.answer (.element x))
  /-- A new element lies before the gap and not after it. -/
  add_previous : ∀ x, ((c.respond (.call (.add x))).2.respond (.call .previous)).1
    = .ok (.answer (.element x))
  add_next : c.items ≠ [] → ∀ x, ((c.respond (.call (.add x))).2.respond (.call .next)).1
    = (c.respond (.call .next)).1
  /-- The element that can be edited is the one returned last. -/
  next_touched : ∀ x, (c.respond (.call .next)).1 = .ok (.answer (.element x)) →
    ∃ i, (c.respond (.call .next)).2.touched = some i ∧ c.items[i]? = some x
  previous_touched : ∀ x, (c.respond (.call .previous)).1 = .ok (.answer (.element x)) →
    ∃ i, (c.respond (.call .previous)).2.touched = some i ∧ c.items[i]? = some x
  /-- The indexes are those of the elements that the moves return, one after the other. -/
  indexes : c.items ≠ [] → ∃ i j x y,
    (c.respond .nextIndex).1 = .ok (.index (i : Nat))
      ∧ (c.respond (.call .next)).1 = .ok (.answer (.element x)) ∧ c.items[i]? = some x
      ∧ (c.respond .previousIndex).1 = .ok (.index (j : Nat))
      ∧ (c.respond (.call .previous)).1 = .ok (.answer (.element y)) ∧ c.items[j]? = some y
      ∧ (j : Int) = ((i : Int) - 1) % c.items.length

theorem length_pos_of_cross {i gap : Nat} {x : α}
    (h : (c.cross i gap).1 = .ok (.answer (.element x))) : 0 < c.items.length := by
  apply Nat.pos_of_ne_zero
  intro hnil
  rw [cross_of_empty hnil] at h
  contradiction

/-- Where the first element around is known, it is the one returned next. -/
theorem respond_next_of_around {x : α} {rest : List α} (h : c.around = x :: rest) :
    (c.respond (.call .next)).1 = .ok (.answer (.element x)) := by
  have hpos : 0 < c.items.length := by
    rw [← length_around, h]
    exact Nat.succ_pos _
  obtain ⟨y, ys, haround, hnext, -⟩ := around_next hpos
  rw [haround] at h
  rw [hnext, (List.cons.inj h).1]

/-- Where the last element around is known, it is the one returned back. -/
theorem respond_previous_of_around {x : α} {rest : List α} (h : c.around = rest ++ [x]) :
    (c.respond (.call .previous)).1 = .ok (.answer (.element x)) := by
  have hpos : 0 < c.items.length := by
    rw [← length_around, h, List.length_append]
    exact Nat.succ_pos _
  obtain ⟨y, ys, haround, hprevious, -⟩ := around_previous hpos
  rw [haround] at h
  rw [hprevious, List.singleton_inj.mp (List.append_inj_right' h rfl)]

theorem laws (hvalid : c.Valid) : c.Laws where
  next_previous := by
    intro x hx
    obtain ⟨y, rest, -, hy, haround⟩ := around_next (length_pos_of_cross hx)
    obtain rfl : y = x := by rw [hy] at hx; injection hx with h; injection h with h; injection h
    exact respond_previous_of_around haround
  previous_next := by
    intro x hx
    obtain ⟨y, rest, -, hy, haround⟩ := around_previous (length_pos_of_cross hx)
    obtain rfl : y = x := by rw [hy] at hx; injection hx with h; injection h with h; injection h
    exact respond_next_of_around haround
  add_previous := fun x => respond_previous_of_around (around_add hvalid x)
  add_next := by
    intro hne x
    obtain ⟨y, rest, haround, hnext, -⟩ := around_next (List.length_pos_of_ne_nil hne)
    have hadded : (c.respond (.call (.add x))).2.around = y :: (rest ++ [x]) := by
      rw [around_add hvalid, haround, List.cons_append]
    rw [hnext, respond_next_of_around hadded]
  next_touched := by
    intro x hx
    have hlt := upcoming_lt (length_pos_of_cross hx)
    rw [respond, cross_of_lt hlt] at hx ⊢
    injection hx with h; injection h with h; injection h with h
    exact ⟨c.upcoming, rfl, h ▸ List.getElem?_eq_getElem hlt⟩
  previous_touched := by
    intro x hx
    have hlt := foregoing_lt (length_pos_of_cross hx)
    rw [respond, cross_of_lt hlt] at hx ⊢
    injection hx with h; injection h with h; injection h with h
    exact ⟨c.foregoing, rfl, h ▸ List.getElem?_eq_getElem hlt⟩
  indexes := by
    intro hne
    have hpos := List.length_pos_of_ne_nil hne
    have hlt := upcoming_lt hpos
    have hlt' := foregoing_lt hpos
    refine ⟨c.upcoming, c.foregoing, c.items[c.upcoming], c.items[c.foregoing], ?_, ?_, ?_, ?_, ?_,
      ?_, ?_⟩
    · rw [upcoming_eq_emod]
      rfl
    · rw [respond, cross_of_lt hlt]
    · exact List.getElem?_eq_getElem hlt
    · rw [foregoing_eq_emod hpos]
      rfl
    · rw [respond, cross_of_lt hlt']
    · exact List.getElem?_eq_getElem hlt'
    · rw [foregoing_eq_emod hpos, upcoming_eq_emod, Int.emod_sub_emod]

end Circle

/-! ## §3. A cursor at a plain position. -/

namespace Cursor

variable {cursor : Field σ Cursor} {list : Field σ (List α)} {s : σ} {p i : Nat}
  {last : Option Place}

theorem hasNext_plain (list : Field σ (List α))
    (h : cursor.get s = { position := .plain p, last := last }) :
    hasNext cursor (.ofList list) s = .value (decide (p < (list.get s).length)) s := by
  simp only [hasNext, Act.bind_apply, Field.read_apply, h, Sequence.length_apply,
    Place.toInt_plain, Int.ofNat_lt, Act.pure_apply]

theorem hasPrevious_plain (h : cursor.get s = { position := .plain p, last := last }) :
    hasPrevious cursor s = .value (decide (0 < p)) s := by
  simp only [hasPrevious, Act.bind_apply, Field.read_apply, h, Place.toInt_plain, gt_iff_lt,
    Int.natCast_pos, Act.pure_apply]

theorem next_plain (h : cursor.get s = { position := .plain p, last := last }) {x : α}
    (hx : (list.get s)[p]? = some x) :
    next cursor (.ofList list) s = .value x
      (cursor.set { position := .plain (p + 1), last := some (.plain p) } s) := by
  have hmore : ¬ (Place.plain p).toInt ≥ ((list.get s).length : Int) := by
    have hp := (List.getElem?_eq_some_iff.mp hx).1
    rw [Place.toInt_plain]
    omega
  simp only [next, Act.bind_apply, Field.read_apply, h, Sequence.length_apply, if_neg hmore,
    Sequence.get_plain hx, Field.modify_apply, Place.following_plain, Act.pure_apply]

theorem previous_plain (hapart : cursor.Apart list)
    (h : cursor.get s = { position := .plain (p + 1), last := last }) {x : α}
    (hx : (list.get s)[p]? = some x) :
    previous cursor (.ofList list) s = .value x
      (cursor.set { position := .plain p, last := some (.plain p) } s) := by
  have hmore : ¬ (Place.plain (p + 1)).toInt ≤ 0 := by
    rw [Place.toInt_plain]
    omega
  have hget : ∀ c, (list.get (cursor.set c s))[p]? = some x := by
    intro c
    rw [hapart.get_right, hx]
  simp only [previous, Act.bind_apply, Field.read_apply, h, if_neg hmore, Field.write,
    Act.update_apply, Place.preceding_plain, Nat.add_sub_cancel, Sequence.get_plain (hget _)]

theorem crossed_plain (h : cursor.get s = { position := .plain p, last := some (.plain i) })
    (edit : Edit) : crossed cursor edit s = .value (.plain i) s := by
  simp only [crossed, Act.bind_apply, Field.read_apply, h, Option.filter_some,
    Place.fromFront_plain, if_true, Act.pure_apply]

theorem crossed_none (h : cursor.get s = { position := .plain p, last := none }) (edit : Edit) :
    crossed cursor edit s = .failure (.notMoved edit true) s := by
  simp only [crossed, Act.bind_apply, Field.read_apply, h, Option.filter_none, Act.fail_apply]

theorem remove_plain (hapart : cursor.Apart list)
    (h : cursor.get s = { position := .plain p, last := some (.plain i) })
    (hi : i < (list.get s).length) :
    remove cursor (.ofList list) s = .value ()
      (cursor.set { position := .plain (if i < p then p - 1 else p) }
        (list.set ((list.get s).eraseIdx i) s)) := by
  have hposition : (if (Place.plain i).toInt < (Place.plain p).toInt then (Place.plain p).preceding
      else .plain p) = .plain (if i < p then p - 1 else p) := by
    simp only [Place.toInt_plain, Int.ofNat_lt, Place.preceding_plain]
    split <;> rfl
  simp only [remove, Act.bind_apply, crossed_plain h, Sequence.delete_plain hi,
    Field.modify_apply, hapart.get_left, h, hposition]

theorem set_plain (h : cursor.get s = { position := .plain p, last := some (.plain i) })
    (hi : i < (list.get s).length) (x : α) :
    set cursor (.ofList list) x s = .value () (list.set ((list.get s).set i x) s) := by
  simp only [set, Act.bind_apply, crossed_plain h, Sequence.set_plain hi]

theorem add_plain (hapart : cursor.Apart list)
    (h : cursor.get s = { position := .plain p, last := last })
    (hp : p ≤ (list.get s).length) (x : α) :
    add cursor (.ofList list) x s = .value ()
      (cursor.set { position := .plain (p + 1) }
        (list.set ((list.get s).take p ++ x :: (list.get s).drop p) s)) := by
  simp only [add, Act.bind_apply, Field.read_apply, h, Sequence.insert_plain hp,
    Field.modify_apply, hapart.get_left, Place.following_plain]

end Cursor

/-! ## §4. The response of a list ring. -/

namespace Circle

/-- The cursor in the gap of a circle. -/
def cursor (c : Circle α) : Cursor where
  position := .plain c.gap
  last := c.touched.map .plain

/-- The list ring that shows a circle after so many turns. -/
def ring (c : Circle α) (turns : Nat) : ListRing where
  cursor := c.cursor
  expected := c.items.length
  turns := turns

/-- Write the list ring and its list. -/
def put (self : Field σ ListRing) (list : Field σ (List α)) (c : Circle α) (turns : Nat)
    (s : σ) : σ :=
  self.set (c.ring turns) (list.set c.items s)

/-- The list and the list ring are those of a valid circle. -/
structure Shown (part : Field σ ListRing) (list : Field σ (List α)) (c : Circle α) (turns : Nat)
    (s : σ) : Prop where
  list_get : list.get s = c.items
  ring_get : part.get s = c.ring turns
  valid : c.Valid

variable {self : Field σ ListRing} {list : Field σ (List α)} {s : σ} {c : Circle α} {turns : Nat}

theorem put_self (hbeside : self.Beside list) (h : Shown self list c turns s) :
    put self list c turns s = s := by
  unfold put
  rw [← h.list_get, ← h.ring_get, hbeside.lawful_other.set_get, hbeside.lawful.set_get]

theorem shown_put (hbeside : self.Beside list) (h : c.Valid) (turns : Nat) :
    Shown self list c turns (put self list c turns s) where
  list_get := by
    unfold put
    rw [hbeside.apart.get_right, hbeside.lawful_other.get_set]
  ring_get := hbeside.lawful.get_set _ _
  valid := h

/-- Of two writings of the same elements the second hides the first. -/
theorem put_moved (hbeside : self.Beside list) (c : Circle α) (i gap turns turns' : Nat) (s : σ) :
    put self list (c.moved i gap) turns' (put self list c turns s)
      = put self list (c.moved i gap) turns' s := by
  have hlist : list.get (put self list c turns s) = c.items := by
    unfold put
    rw [hbeside.apart.get_right, hbeside.lawful_other.get_set]
  show self.set _ (list.set c.items (put self list c turns s)) = _
  rw [← hlist, hbeside.lawful_other.set_get]
  exact hbeside.lawful.set_set _ _ _

end Circle

namespace ListRing

open Cursors.Circle (Shown put)

variable {self : Field σ ListRing} {list : Field σ (List α)} {s : σ} {c : Circle α} {turns : Nat}

theorem check_apply (h : Shown self list c turns s) :
    check self (.ofList list) s = .value () s := by
  show checkSize .list (self.get s).expected (.reading fun s => (list.get s).length) s = _
  rw [h.ring_get]
  show checkSize .list c.items.length (.reading fun s => (list.get s).length) s = _
  rw [← h.list_get]
  exact checkSize_of_eq rfl

theorem present_apply (h : Shown self list c turns s) :
    present self s = .value (cursorField self turns) s := by
  simp only [present, Act.bind_apply, Field.read_apply, h.ring_get, Act.pure_apply]
  rfl

theorem cursorField_get (h : Shown self list c turns s) :
    (cursorField self turns).get s = c.cursor := by
  show (self.get s).cursor = _
  rw [h.ring_get]
  rfl

/-- The present cursor is written into the ring. -/
theorem cursorField_set (h : (self.get s).turns = turns) (k : Cursor) :
    (cursorField self turns).set k s = self.set { self.get s with cursor := k } s := by
  show self.set (if (self.get s).turns = turns then _ else _) s = _
  rw [if_pos h]

theorem cursorField_apart (hapart : self.Apart list) (turns : Nat) :
    (cursorField self turns).Apart list where
  get_right _ s := hapart.get_right _ s
  get_left xs s := congrArg ListRing.cursor (hapart.get_left xs s)

/-- What a cursor writes into its ring, it writes into a ring that expects what it did. -/
theorem cursorField_write (hbeside : self.Beside list) (h : Shown self list c turns s)
    (k : Cursor) (xs : List α) :
    (cursorField self turns).set k (list.set xs s)
      = self.set { cursor := k, expected := c.items.length, turns := turns } (list.set xs s) := by
  have hring : self.get (list.set xs s) = c.ring turns := by
    rw [hbeside.apart.get_left, h.ring_get]
  rw [cursorField_set (by rw [hring]; rfl), hring]
  rfl

/-- What is expected is corrected after that. -/
theorem modify_write (hbeside : self.Beside list) (h : Shown self list c turns s)
    (c' : Circle α) {f : ListRing → ListRing}
    (hf : f { cursor := c'.cursor, expected := c.items.length, turns := turns } = c'.ring turns) :
    self.modify f ((cursorField self turns).set c'.cursor (list.set c'.items s))
      = .value () (put self list c' turns s) := by
  rw [cursorField_write hbeside h, Field.modify_apply, hbeside.lawful.get_set,
    hbeside.lawful.set_set, hf]
  rfl

/-! ### Moves. -/

theorem hasNext_apply (h : Shown self list c turns s) :
    hasNext self (.ofList list) s = .value (!c.items.isEmpty) s := by
  have hmore : decide (c.items.length > 0) = !c.items.isEmpty := by
    cases c.items <;> rfl
  simp only [hasNext, Act.bind_apply, check_apply h, Field.read_apply, h.ring_get, Circle.ring,
    Act.pure_apply, hmore]

theorem reset_apply (hbeside : self.Beside list) (h : Shown self list c turns s) :
    reset self s = .value () (put self list { items := c.items } (turns + 1) s) := by
  have hlist : list.set c.items s = s := by rw [← h.list_get, hbeside.lawful_other.set_get]
  simp only [reset, turn, Field.modify_apply, h.ring_get, put, hlist]
  rfl

/-- A cursor that only moves leaves the elements alone. -/
theorem cursorField_moved (hbeside : self.Beside list) (h : Shown self list c turns s)
    (i gap : Nat) :
    (cursorField self turns).set (c.moved i gap).cursor s
      = put self list (c.moved i gap) turns s := by
  have hwrite := cursorField_write hbeside h (c.moved i gap).cursor c.items
  rw [← h.list_get, hbeside.lawful_other.set_get] at hwrite
  rw [hwrite]
  show _ = self.set _ (list.set c.items s)
  rw [← h.list_get, hbeside.lawful_other.set_get, h.list_get]
  rfl

theorem cursor_next (hbeside : self.Beside list) (hvalid : c.Valid) (hlt : c.gap < c.items.length)
    (turns : Nat) (s : σ) :
    Cursor.next (cursorField self turns) (.ofList list) (put self list c turns s)
      = .value c.items[c.gap] (put self list (c.moved c.gap (c.gap + 1)) turns s) := by
  have h : Shown self list c turns (put self list c turns s) :=
    Circle.shown_put hbeside hvalid turns
  have hx : (list.get (put self list c turns s))[c.gap]? = some c.items[c.gap] := by
    rw [h.list_get, List.getElem?_eq_getElem hlt]
  rw [Cursor.next_plain (cursorField_get h) hx]
  show Outcome.value _ ((cursorField self turns).set (c.moved c.gap (c.gap + 1)).cursor _) = _
  rw [cursorField_moved hbeside h, Circle.put_moved hbeside]

theorem cursor_previous (hbeside : self.Beside list) (hvalid : c.Valid) {i : Nat}
    (hgap : c.gap = i + 1) (hlt : i < c.items.length) (turns : Nat) (s : σ) :
    Cursor.previous (cursorField self turns) (.ofList list) (put self list c turns s)
      = .value c.items[i] (put self list (c.moved i i) turns s) := by
  have h : Shown self list c turns (put self list c turns s) :=
    Circle.shown_put hbeside hvalid turns
  have hget : (cursorField self turns).get (put self list c turns s)
      = { position := .plain (i + 1), last := c.touched.map .plain } := by
    rw [cursorField_get h, ← hgap]
    rfl
  have hx : (list.get (put self list c turns s))[i]? = some c.items[i] := by
    rw [h.list_get, List.getElem?_eq_getElem hlt]
  rw [Cursor.previous_plain (cursorField_apart hbeside.apart turns) hget hx]
  show Outcome.value _ ((cursorField self turns).set (c.moved i i).cursor _) = _
  rw [cursorField_moved hbeside h, Circle.put_moved hbeside]

/-- A gap at the back goes to the front before it moves forward. -/
theorem next_of_lt (hbeside : self.Beside list) (h : Shown self list c turns s)
    (hupcoming : c.upcoming < c.items.length) :
    ∃ turns', next self (.ofList list) s = .value c.items[c.upcoming]
      (put self list (c.moved c.upcoming (c.upcoming + 1)) turns' s) := by
  have hpos : 0 < c.items.length := Nat.zero_lt_of_lt hupcoming
  have hne : ¬ (c.ring turns).expected = 0 := Nat.ne_of_gt hpos
  have hmore := Cursor.hasNext_plain list (cursorField_get h)
  simp only [next, Act.bind_apply, check_apply h, Field.read_apply, h.ring_get, if_neg hne,
    present_apply h, hmore, h.list_get]
  by_cases hlt : c.gap < c.items.length
  · have hup : c.upcoming = c.gap := Nat.mod_eq_of_lt hlt
    have hmove := cursor_next hbeside h.valid hlt turns s
    rw [Circle.put_self hbeside h] at hmove
    simp only [decide_eq_true hlt, Bool.not_true, Bool.false_eq_true, if_false, Act.bind_apply,
      present_apply h, hup]
    exact ⟨turns, hmove⟩
  · have hup : c.upcoming = 0 := by
      have hgap : c.gap = c.items.length := Nat.le_antisymm h.valid.gap_le (Nat.le_of_not_lt hlt)
      rw [Circle.upcoming, hgap, Nat.mod_self]
    have hfront := Circle.valid_fresh c.items
    simp only [decide_eq_false hlt, Bool.not_false, if_true, Act.bind_apply, reset_apply hbeside h,
      present_apply (Circle.shown_put hbeside hfront (turns + 1)), hup]
    exact ⟨turns + 1, cursor_next hbeside hfront hpos (turns + 1) s⟩

/-- A gap at the front goes to the back before it moves backward. -/
theorem previous_of_lt (hbeside : self.Beside list) (h : Shown self list c turns s)
    (hforegoing : c.foregoing < c.items.length) :
    ∃ turns', previous self (.ofList list) s = .value c.items[c.foregoing]
      (put self list (c.moved c.foregoing c.foregoing) turns' s) := by
  have hpos : 0 < c.items.length := Nat.zero_lt_of_lt hforegoing
  have hne : ¬ (c.ring turns).expected = 0 := Nat.ne_of_gt hpos
  have hmore := Cursor.hasPrevious_plain (cursorField_get h)
  simp only [previous, Act.bind_apply, check_apply h, Field.read_apply, h.ring_get, if_neg hne,
    present_apply h, hmore]
  by_cases hlt : 0 < c.gap
  · have hle := h.valid.gap_le
    have hfore : c.foregoing = c.gap - 1 := by
      have hsum : c.gap + c.items.length - 1 = c.gap - 1 + c.items.length := by omega
      rw [Circle.foregoing, hsum, Nat.add_mod_right, Nat.mod_eq_of_lt (by omega)]
    have hgap : c.gap = c.gap - 1 + 1 := by omega
    have hmove := cursor_previous hbeside h.valid hgap (by omega) turns s
    rw [Circle.put_self hbeside h] at hmove
    simp only [decide_eq_true hlt, Bool.not_true, Bool.false_eq_true, if_false, Act.bind_apply,
      present_apply h, hfore]
    exact ⟨turns, hmove⟩
  · have hfore : c.foregoing = c.items.length - 1 := by
      have hgap : c.gap = 0 := Nat.eq_zero_of_not_pos hlt
      rw [Circle.foregoing, hgap, Nat.zero_add, Nat.mod_eq_of_lt (by omega)]
    have hback : Circle.Valid { items := c.items, gap := c.items.length } :=
      ⟨Nat.le_refl _, fun i hi => by contradiction⟩
    have hturn : turn self { position := .plain (c.ring turns).expected } s
        = .value () (put self list { items := c.items, gap := c.items.length } (turns + 1) s) := by
      have hlist : list.set c.items s = s := by rw [← h.list_get, hbeside.lawful_other.set_get]
      simp only [turn, Field.modify_apply, h.ring_get, put, hlist]
      rfl
    have hlast : c.items.length = c.items.length - 1 + 1 := by omega
    have hmove := cursor_previous hbeside hback hlast (Nat.sub_lt hpos Nat.one_pos) (turns + 1) s
    simp only [decide_eq_false hlt, Bool.not_false, if_true, Act.bind_apply, Field.read_apply,
      h.ring_get, hturn, present_apply (Circle.shown_put hbeside hback (turns + 1)), hfore]
    exact ⟨turns + 1, hmove⟩

theorem next_of_empty (h : Shown self list c turns s) (hnil : c.items.length = 0) :
    next self (.ofList list) s = .failure .ended s := by
  have hzero : (c.ring turns).expected = 0 := hnil
  simp only [next, Act.bind_apply, check_apply h, Field.read_apply, h.ring_get, if_pos hzero,
    Act.fail_apply]

theorem previous_of_empty (h : Shown self list c turns s) (hnil : c.items.length = 0) :
    previous self (.ofList list) s = .failure .ended s := by
  have hzero : (c.ring turns).expected = 0 := hnil
  simp only [previous, Act.bind_apply, check_apply h, Field.read_apply, h.ring_get, if_pos hzero,
    Act.fail_apply]

/-! ### Indexes. -/

theorem nextIndex_apply (h : Shown self list c turns s) :
    nextIndex self (.ofList list) s = .value ((c.gap : Int) % c.items.length) s := by
  have hmore := Cursor.hasNext_plain list (cursorField_get h)
  simp only [nextIndex, Act.bind_apply, check_apply h, present_apply h, hmore, h.list_get]
  rw [← c.upcoming_eq_emod, Circle.upcoming]
  by_cases hlt : c.gap < c.items.length
  · simp only [decide_eq_true hlt, if_true, Act.bind_apply, present_apply h, Cursor.nextIndex,
      Field.read_apply, cursorField_get h, Nat.mod_eq_of_lt hlt]
    rfl
  · have hmod : c.gap % c.items.length = 0 := by
      rw [Nat.le_antisymm h.valid.gap_le (Nat.le_of_not_lt hlt), Nat.mod_self]
    simp only [decide_eq_false hlt, Bool.false_eq_true, if_false, hmod]
    rfl

theorem previousIndex_apply (h : Shown self list c turns s) :
    previousIndex self (.ofList list) s = .value (((c.gap : Int) - 1) % c.items.length) s := by
  have hmore := Cursor.hasPrevious_plain (cursorField_get h)
  have hle := h.valid.gap_le
  simp only [previousIndex, Act.bind_apply, check_apply h, present_apply h, hmore]
  by_cases hlt : 0 < c.gap
  · have hmod : ((c.gap : Int) - 1) % c.items.length = (c.gap : Int) - 1 :=
      Int.emod_eq_of_lt (by omega) (by omega)
    simp only [decide_eq_true hlt, if_true, Act.bind_apply, present_apply h, Cursor.previousIndex,
      Cursor.nextIndex, Field.read_apply, cursorField_get h, hmod]
    rfl
  · have hgap : c.gap = 0 := Nat.eq_zero_of_not_pos hlt
    have hmod : ((c.gap : Int) - 1) % c.items.length = (c.items.length : Int) - 1 := by
      rw [hgap]
      rcases Nat.eq_zero_or_pos c.items.length with hnil | hpos
      · rw [hnil]
        rfl
      · rw [← Int.add_emod_right, Int.emod_eq_of_lt (by omega) (by omega)]
        omega
    simp only [decide_eq_false hlt, Bool.false_eq_true, if_false, Act.bind_apply, Field.read_apply,
      h.ring_get, hmod]
    rfl

/-! ### Edits. -/

theorem cursor_of_touched (h : Shown self list c turns s) {i : Nat} (hi : c.touched = some i) :
    (cursorField self turns).get s
      = { position := .plain c.gap, last := some (.plain i) } := by
  rw [cursorField_get h, Circle.cursor, hi]
  rfl

theorem cursor_of_untouched (h : Shown self list c turns s) (hnone : c.touched = none) :
    (cursorField self turns).get s = { position := .plain c.gap, last := none } := by
  rw [cursorField_get h, Circle.cursor, hnone]
  rfl

theorem remove_of_untouched (h : Shown self list c turns s) (hnone : c.touched = none) :
    remove self (.ofList list) s = .failure (.notMoved .remove true) s := by
  simp only [remove, Act.bind_apply, check_apply h, present_apply h, Cursor.remove,
    Cursor.crossed_none (cursor_of_untouched h hnone)]

theorem set_of_untouched (h : Shown self list c turns s) (hnone : c.touched = none) (x : α) :
    set self (.ofList list) x s = .failure (.notMoved .set true) s := by
  simp only [set, Act.bind_apply, check_apply h, present_apply h, Cursor.set,
    Cursor.crossed_none (cursor_of_untouched h hnone)]

theorem remove_of_touched (hbeside : self.Beside list) (h : Shown self list c turns s) {i : Nat}
    (hi : c.touched = some i) :
    remove self (.ofList list) s = .value () (put self list (c.without i) turns s) := by
  have hlt := h.valid.touched_lt i hi
  have hremove := Cursor.remove_plain (cursorField_apart hbeside.apart turns)
    (cursor_of_touched h hi) (by rw [h.list_get]; exact hlt)
  rw [h.list_get] at hremove
  simp only [remove, Act.bind_apply, check_apply h, present_apply h, hremove]
  have hlen : (c.items.eraseIdx i).length = c.items.length - 1 := List.length_eraseIdx_of_lt hlt
  apply modify_write hbeside h (c.without i)
  rw [← hlen]
  rfl

theorem set_of_touched (hbeside : self.Beside list) (h : Shown self list c turns s) {i : Nat}
    (hi : c.touched = some i) (x : α) :
    set self (.ofList list) x s
      = .value () (put self list { c with items := c.items.set i x } turns s) := by
  have hset := Cursor.set_plain (cursor_of_touched h hi)
    (by rw [h.list_get]; exact h.valid.touched_lt i hi) x
  rw [h.list_get] at hset
  have hring : self.get (list.set (c.items.set i x) s)
      = Circle.ring { c with items := c.items.set i x } turns := by
    rw [hbeside.apart.get_left, h.ring_get, Circle.ring, Circle.ring, List.length_set]
    rfl
  simp only [set, Act.bind_apply, check_apply h, present_apply h, hset]
  rw [put, ← hring, hbeside.lawful.set_get]

theorem add_apply (hbeside : self.Beside list) (h : Shown self list c turns s) (x : α) :
    add self (.ofList list) x s
      = .value () (put self list (c.respond (.call (.add x))).2 turns s) := by
  have hle := h.valid.gap_le
  have hadd := Cursor.add_plain (cursorField_apart hbeside.apart turns) (cursorField_get h)
    (by rw [h.list_get]; exact hle) x
  rw [h.list_get] at hadd
  simp only [add, Act.bind_apply, check_apply h, present_apply h, hadd]
  have hlen : (c.items.take c.gap ++ x :: c.items.drop c.gap).length = c.items.length + 1 := by
    rw [List.length_append, List.length_cons, List.length_take_of_le hle, List.length_drop]
    omega
  apply modify_write hbeside h (c.respond (.call (.add x))).2
  rw [← hlen]
  rfl

/-! ### All of them. -/

/-- A gesture is answered as `r` says, and what is written is its circle; one that fails writes
nothing. -/
def Responds (self : Field σ ListRing) (list : Field σ (List α)) (g : Gesture α) (s : σ)
    (r : Except Failure (Reply α) × Circle α) : Prop :=
  ∃ turns s', g.ask (twoWay self (.ofList list)) (reset self) s = .of r.1 s'
    ∧ s' = put self list r.2 turns s ∧ r.2.Valid ∧ ∀ e, r.1 = .error e → s' = s

theorem responds_of_still (hbeside : self.Beside list) (h : Shown self list c turns s)
    {g : Gesture α} {r : Except Failure (Reply α)}
    (hask : g.ask (twoWay self (.ofList list)) (reset self) s = .of r s) :
    Responds self list g s (r, c) :=
  ⟨turns, s, hask, (Circle.put_self hbeside h).symm, h.valid, fun _ _ => rfl⟩

theorem responds_of_written {c' : Circle α} {g : Gesture α} {a : Reply α} {turns : Nat}
    (hask : g.ask (twoWay self (.ofList list)) (reset self) s
      = .of (.ok a) (put self list c' turns s)) (hvalid : c'.Valid) :
    Responds self list g s (.ok a, c') := by
  refine ⟨turns, _, hask, rfl, hvalid, ?_⟩
  intro e he
  contradiction

theorem responds_next (hbeside : self.Beside list) (h : Shown self list c turns s) :
    Responds self list (.call .next) s (c.respond (.call .next)) := by
  rcases Nat.eq_zero_or_pos c.items.length with hnil | hpos
  · have hstep : (twoWay self (.ofList list)).step .forward s = .of (.error .ended) s :=
      next_of_empty h hnil
    rw [Circle.respond, Circle.cross_of_empty hnil]
    exact responds_of_still hbeside h (Gesture.ask_call_of (Call.ask_step_of hstep))
  · have hlt := Circle.upcoming_lt hpos
    obtain ⟨turns', hnext⟩ := next_of_lt hbeside h (Circle.upcoming_lt hpos)
    have hstep : (twoWay self (.ofList list)).step .forward s = .of (.ok _) _ := hnext
    rw [Circle.respond, Circle.cross_of_lt hlt]
    exact responds_of_written (Gesture.ask_call_of (Call.ask_step_of hstep))
      (Circle.valid_moved hlt hlt)

theorem responds_previous (hbeside : self.Beside list) (h : Shown self list c turns s) :
    Responds self list (.call .previous) s (c.respond (.call .previous)) := by
  rcases Nat.eq_zero_or_pos c.items.length with hnil | hpos
  · have hstep : (twoWay self (.ofList list)).step .backward s = .of (.error .ended) s :=
      previous_of_empty h hnil
    rw [Circle.respond, Circle.cross_of_empty hnil]
    exact responds_of_still hbeside h (Gesture.ask_call_of (Call.ask_step_of hstep))
  · have hlt := Circle.foregoing_lt hpos
    obtain ⟨turns', hprevious⟩ := previous_of_lt hbeside h (Circle.foregoing_lt hpos)
    have hstep : (twoWay self (.ofList list)).step .backward s = .of (.ok _) _ := hprevious
    rw [Circle.respond, Circle.cross_of_lt hlt]
    exact responds_of_written (Gesture.ask_call_of (Call.ask_step_of hstep))
      (Circle.valid_moved hlt (Nat.le_of_lt hlt))

theorem responds_hasMore (hbeside : self.Beside list) (h : Shown self list c turns s)
    (d : Direction) :
    Responds self list (.call (.hasMore d)) s (c.respond (.call (.hasMore d))) := by
  have hmore : (twoWay self (.ofList list)).hasMore d s = .of (.ok (!c.items.isEmpty)) s := by
    cases d <;> exact hasNext_apply h
  have hrespond : c.respond (.call (.hasMore d))
      = (.ok (.answer (.truth (!c.items.isEmpty))), c) := by
    cases d <;> rfl
  rw [hrespond]
  exact responds_of_still hbeside h (Gesture.ask_call_of (Call.ask_hasMore_of hmore))

theorem responds_add (hbeside : self.Beside list) (h : Shown self list c turns s) (x : α) :
    Responds self list (.call (.add x)) s (c.respond (.call (.add x))) :=
  responds_of_written (Gesture.ask_call_of (Call.ask_add_of (r := .ok _) (add_apply hbeside h x)))
    (Circle.valid_add h.valid x)

theorem responds_set (hbeside : self.Beside list) (h : Shown self list c turns s) (x : α) :
    Responds self list (.call (.set x)) s (c.respond (.call (.set x))) := by
  match hi : c.touched with
  | none =>
      rw [Circle.respond, Circle.change_of_untouched hi]
      exact responds_of_still hbeside h
        (Gesture.ask_call_of (Call.ask_set_of (r := .error _) (set_of_untouched h hi x)))
  | some i =>
      rw [Circle.respond, Circle.change_of_touched hi]
      exact responds_of_written
        (Gesture.ask_call_of (Call.ask_set_of (r := .ok _) (set_of_touched hbeside h hi x)))
        (Circle.valid_set h.valid i x)

theorem responds_remove (hbeside : self.Beside list) (h : Shown self list c turns s) :
    Responds self list (.call .remove) s (c.respond (.call .remove)) := by
  match hi : c.touched with
  | none =>
      rw [Circle.respond, Circle.change_of_untouched hi]
      exact responds_of_still hbeside h
        (Gesture.ask_call_of (Call.ask_remove_of (r := .error _) (remove_of_untouched h hi)))
  | some i =>
      rw [Circle.respond, Circle.change_of_touched hi]
      exact responds_of_written
        (Gesture.ask_call_of (Call.ask_remove_of (r := .ok _) (remove_of_touched hbeside h hi)))
        (Circle.valid_without h.valid hi)

/-- A list ring responds as its circle does. -/
theorem ask_respond (hbeside : self.Beside list) (h : Shown self list c turns s) (g : Gesture α) :
    Responds self list g s (c.respond g) := by
  match g with
  | .call .next => exact responds_next hbeside h
  | .call .previous => exact responds_previous hbeside h
  | .call .hasNext => exact responds_hasMore hbeside h .forward
  | .call .hasPrevious => exact responds_hasMore hbeside h .backward
  | .call (.add x) => exact responds_add hbeside h x
  | .call (.set x) => exact responds_set hbeside h x
  | .call .remove => exact responds_remove hbeside h
  | .nextIndex =>
      exact responds_of_still hbeside h (r := .ok _) (Gesture.ask_nextIndex_of (nextIndex_apply h))
  | .previousIndex =>
      exact responds_of_still hbeside h (r := .ok _)
        (Gesture.ask_previousIndex_of (previousIndex_apply h))
  | .reset =>
      exact responds_of_written (Gesture.ask_reset_of (reset_apply hbeside h))
        (Circle.valid_fresh c.items)

end ListRing

/-! ## §5. Every run. -/

namespace Circle

/-- A run of gestures is answered by the circle; at every moment the circle has the elements of
the list, and a gesture that fails changes nothing. -/
def Simulates : List (Gesture α) → Circle α → List α × ListRing → Prop
  | [], c, s => s.1 = c.items ∧ c.Laws
  | g :: gs, c, s =>
      (s.1 = c.items ∧ c.Laws)
        ∧ ∃ s', g.ask (ListRing.twoWay .right (.ofList .left)) (ListRing.reset .right) s
              = .of (c.respond g).1 s'
            ∧ (∀ e, (c.respond g).1 = .error e → s' = s)
            ∧ Simulates gs (c.respond g).2 s'

theorem simulates_of_shown {gs : List (Gesture α)} {c : Circle α} {turns : Nat}
    {s : List α × ListRing} (h : Shown .right .left c turns s) : Simulates gs c s := by
  -- The induction is on the gestures; each leaves the list and the ring of the next circle.
  induction gs generalizing c turns s with
  | nil => exact ⟨h.list_get, laws h.valid⟩
  | cons g gs ih =>
      obtain ⟨turns', s', hask, hs', hvalid, hstill⟩ :=
        ListRing.ask_respond Field.right_beside_left h g
      have hshown : Shown .right .left (c.respond g).2 turns' s' := by
        rw [hs']
        exact shown_put Field.right_beside_left hvalid turns'
      exact ⟨⟨h.list_get, laws h.valid⟩, s', hask, hstill, ih hshown⟩

/-- **A new list ring is a circle with a gap at the seam.** -/
theorem simulates_circle (xs : List α) (gs : List (Gesture α)) :
    Simulates gs { items := xs } (xs, { expected := xs.length }) := by
  have hshown : Shown .right .left { items := xs } 0 (xs, { expected := xs.length }) :=
    ⟨rfl, rfl, valid_fresh xs⟩
  exact simulates_of_shown hshown

end Circle

end Cursors
