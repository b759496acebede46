/-
  Cursors.Proofs.Zipper
  ─────────────────────
  **THE ZIPPER OF A CURSOR.**

  A cursor in a list is a gap: some elements lie behind it, the others in
  front of it, and the element that it crossed last is the nearest one on
  one of the two sides.  A `Zipper` says just that.  Both sides list their
  nearest element first, so that the two directions are mirror images and
  one statement serves both:

      step d  takes the nearest element in direction `d` to the other side
      remove  drops, and set replaces, the element crossed last
      add     puts an element nearest behind the gap

  Positions of a fixed width wrap around.  `Place.StandsAt` says that a
  position is exact for all lists of at most `bound` elements; positions
  without a width always are.
-/
import Cursors.Combinator.ListFilter

namespace Cursors

/-! ## §1. Exact positions. -/

namespace Place

/-- Every number up to `bound` fits the width of the position, if it has one. -/
def ReachesTo (p : Place) (bound : Nat) : Prop :=
  match p with
  | .fixed width _ => (bound : Int) ≤ width.greatest
  | _ => True

instance (p : Place) (bound : Nat) : Decidable (p.ReachesTo bound) :=
  match p with
  | .fixed width _ => inferInstanceAs (Decidable ((bound : Int) ≤ width.greatest))
  | .plain _ | .truth _ => inferInstanceAs (Decidable True)

/-- The position stands for `n`, and moves up to `bound` are exact. -/
structure StandsAt (p : Place) (n bound : Nat) : Prop where
  toInt_eq : p.toInt = n
  le : n ≤ bound
  reaches : p.ReachesTo bound

theorem standsAt_plain {n bound : Nat} (h : n ≤ bound) : (plain n).StandsAt n bound :=
  ⟨rfl, h, trivial⟩

/-- A width holds what lies between zero and a number up to which it reaches. -/
theorem wrap_eq_self {width : Number.Width} {n bound : Nat} (hn : n ≤ bound)
    (hbound : (bound : Int) ≤ width.greatest) (hpos : 0 < bound) : width.wrap n = n := by
  apply Number.Width.wrap_of_holds
  · -- A width of no bits reaches zero only.
    rintro rfl
    have h0 : (Number.Width.signed 0).greatest = 0 := rfl
    omega
  · have hleast : width.least ≤ 0 := by
      cases width <;> simp only [Number.Width.least] <;> omega
    simp only [Number.Width.holds, decide_eq_true_eq]
    omega

theorem StandsAt.following {p : Place} {n bound : Nat} (h : p.StandsAt n bound)
    (hn : n < bound) : p.following.StandsAt (n + 1) bound := by
  obtain ⟨hp, -, hreach⟩ := h
  cases p with
  | plain m =>
      simp only [toInt_plain, Int.natCast_inj] at hp
      subst hp
      exact standsAt_plain hn
  | truth b =>
      -- A truth value becomes a plain number when it moves.
      have hb : b.toNat = n := by cases b <;> simp [toInt] at hp ⊢ <;> omega
      rw [← hb] at hn ⊢
      exact standsAt_plain hn
  | fixed width m =>
      have hm : m = n := hp
      subst hm
      refine ⟨?_, hn, hreach⟩
      show width.wrap ((n : Int) + 1) = ((n + 1 : Nat) : Int)
      exact wrap_eq_self (n := n + 1) hn hreach (by omega)

theorem StandsAt.preceding {p : Place} {n bound : Nat} (h : p.StandsAt (n + 1) bound) :
    p.preceding.StandsAt n bound := by
  obtain ⟨hp, hn, hreach⟩ := h
  cases p with
  | plain m =>
      simp only [toInt_plain, Int.natCast_inj] at hp
      subst hp
      exact standsAt_plain (by omega)
  | truth b =>
      have hb : b.toNat - 1 = n := by cases b <;> simp [toInt] at hp ⊢ <;> omega
      rw [← hb]
      exact standsAt_plain (by omega)
  | fixed width m =>
      have hm : m = ((n + 1 : Nat) : Int) := hp
      subst hm
      refine ⟨?_, by omega, hreach⟩
      show width.wrap (((n + 1 : Nat) : Int) - 1) = (n : Int)
      rw [show ((n + 1 : Nat) : Int) - 1 = (n : Int) by omega]
      exact wrap_eq_self (by omega) hreach (by omega)

/-- An exact position within a container finds its element. -/
theorem StandsAt.index? {p : Place} {n bound size : Nat} (h : p.StandsAt n bound)
    (hn : n < size) : Place.index? size p.toInt = some n := by
  rw [h.toInt_eq, index?_natCast, if_pos hn]

theorem StandsAt.fromFront {p : Place} {n bound : Nat} (h : p.StandsAt n bound) :
    p.fromFront = true := by
  simp [Place.fromFront, h.toInt_eq]

end Place

/-! ## §2. Directions. -/

/-- The other direction. -/
def Direction.opposite : Direction → Direction
  | .forward => .backward
  | .backward => .forward

@[simp] theorem Direction.opposite_opposite (d : Direction) : d.opposite.opposite = d := by
  cases d <;> rfl

theorem Direction.eq_or_eq_opposite (d e : Direction) : e = d ∨ e = d.opposite := by
  cases d <;> cases e <;> decide

@[simp] theorem Direction.opposite_ne (d : Direction) : d.opposite ≠ d := by
  cases d <;> decide

namespace TwoWay

variable {σ α : Type}

/-- Whether there is an element in a direction. -/
def hasMore (source : TwoWay σ α) : Direction → Act σ Bool
  | .forward => source.hasNext
  | .backward => source.hasPrevious

/-- Cross the nearest element in a direction. -/
def step (source : TwoWay σ α) : Direction → Act σ α
  | .forward => source.next
  | .backward => source.previous

end TwoWay

/-! ## §3. Zippers. -/

/-- A list seen from a gap: the elements on either side, the nearest first, and the direction
of the last crossing, if the element crossed can still be edited. -/
structure Zipper (α : Type) where
  back : List α
  front : List α
  crossed : Option Direction := none
  deriving Repr, DecidableEq

namespace Zipper

variable {α : Type}

/-- The whole list. -/
def items (z : Zipper α) : List α := z.back.reverse ++ z.front

/-- The elements in a direction, the nearest first. -/
def toward (z : Zipper α) : Direction → List α
  | .forward => z.front
  | .backward => z.back

/-- The zipper after the gap crossed `n` elements in a direction. -/
def cross (z : Zipper α) (d : Direction) (n : Nat) : Zipper α :=
  let crossed := if n = 0 then z.crossed else some d
  match d with
  | .forward => ⟨(z.front.take n).reverse ++ z.back, z.front.drop n, crossed⟩
  | .backward => ⟨z.back.drop n, (z.back.take n).reverse ++ z.front, crossed⟩

/-- The index of the element crossed last. -/
def touched (z : Zipper α) : Option Nat :=
  match z.crossed, z.back, z.front with
  | some .forward, _ :: b, _ => some b.length
  | some .backward, b, _ :: _ => some b.length
  | _, _, _ => none

/-- The zipper without the element crossed last. -/
def removed (z : Zipper α) : Zipper α :=
  match z.crossed with
  | some .forward => ⟨z.back.tail, z.front, none⟩
  | some .backward => ⟨z.back, z.front.tail, none⟩
  | none => z

/-- The zipper with the element crossed last replaced. -/
def replaced (z : Zipper α) (x : α) : Zipper α :=
  match z.crossed with
  | some .forward => { z with back := z.back.set 0 x }
  | some .backward => { z with front := z.front.set 0 x }
  | none => z

/-- The zipper with a new element nearest behind the gap. -/
def inserted (z : Zipper α) (x : α) : Zipper α := ⟨x :: z.back, z.front, none⟩

/-- The zipper without an element that can be edited. -/
def settled (z : Zipper α) : Zipper α := { z with crossed := none }

/-- The zipper of a list before its `n`-th element. -/
def ofList (xs : List α) (n : Nat) : Zipper α := ⟨(xs.take n).reverse, xs.drop n, none⟩

@[simp] theorem items_ofList (xs : List α) (n : Nat) : (ofList xs n).items = xs := by
  simp [items, ofList]

@[simp] theorem toward_settled (z : Zipper α) (d : Direction) :
    z.settled.toward d = z.toward d := by
  cases d <;> rfl

@[simp] theorem crossed_settled (z : Zipper α) : z.settled.crossed = none := rfl

/-- A zipper is what lies on its two sides, and the last crossing. -/
theorem eq_of_toward {z z' : Zipper α} (htoward : ∀ d, z.toward d = z'.toward d)
    (hcrossed : z.crossed = z'.crossed) : z = z' := by
  have hb := htoward .backward
  have hf := htoward .forward
  obtain ⟨b, f, c⟩ := z
  obtain ⟨b', f', c'⟩ := z'
  simp only [toward] at hb hf hcrossed
  subst hb hf hcrossed
  rfl

theorem items_eq_of_toward {z z' : Zipper α} (h : ∀ d, z.toward d = z'.toward d) :
    z.items = z'.items := by
  have hb : z.back = z'.back := h .backward
  have hf : z.front = z'.front := h .forward
  rw [items, items, hb, hf]

theorem length_items (z : Zipper α) : z.items.length = z.back.length + z.front.length := by
  simp [items]

/-! ### Crossing. -/

theorem toward_cross (z : Zipper α) (d : Direction) (n : Nat) :
    (z.cross d n).toward d = (z.toward d).drop n := by
  cases d <;> rfl

theorem toward_opposite_cross (z : Zipper α) (d : Direction) (n : Nat) :
    (z.cross d n).toward d.opposite = ((z.toward d).take n).reverse ++ z.toward d.opposite := by
  cases d <;> rfl

@[simp] theorem items_cross (z : Zipper α) (d : Direction) (n : Nat) :
    (z.cross d n).items = z.items := by
  cases d
  · simp [cross, items]
  · simp only [cross, items]
    rw [← List.append_assoc, ← List.reverse_append, List.take_append_drop]

@[simp] theorem cross_zero (z : Zipper α) (d : Direction) : z.cross d 0 = z := by
  cases d <;> simp [cross]

theorem cross_cross (z : Zipper α) (d : Direction) (m n : Nat) :
    (z.cross d m).cross d n = z.cross d (m + n) := by
  cases d <;> cases n <;> simp [cross, List.take_add, List.drop_drop]

/-- Crossing one element back undoes the last of several crossings. -/
theorem toward_cross_cross_opposite (z : Zipper α) {d : Direction} {n : Nat}
    (hn : n < (z.toward d).length) (e : Direction) :
    ((z.cross d (n + 1)).cross d.opposite 1).toward e = (z.cross d n).toward e := by
  have hsplit : (z.toward d).take (n + 1) = (z.toward d).take n ++ [(z.toward d)[n]] :=
    List.take_succ_eq_append_getElem hn
  have hnext : (z.toward d).drop n = (z.toward d)[n] :: (z.toward d).drop (n + 1) :=
    List.drop_eq_getElem_cons hn
  have hopp := z.toward_opposite_cross d (n + 1)
  rw [hsplit, List.reverse_append, List.reverse_singleton, List.singleton_append,
    List.cons_append] at hopp
  -- The element crossed last is the nearest one on the other side, and goes back alone.
  rcases d.eq_or_eq_opposite e with rfl | rfl
  · have hback := (z.cross e (n + 1)).toward_opposite_cross e.opposite 1
    rw [Direction.opposite_opposite] at hback
    rw [hback, hopp, z.toward_cross, z.toward_cross, hnext]
    rfl
  · rw [Zipper.toward_cross, hopp, z.toward_opposite_cross]
    rfl

/-- Crossing elements that are filtered out leaves what is filtered on either side. -/
theorem filter_toward_cross (z : Zipper α) {d : Direction} {n : Nat} {p : α → Bool}
    (hp : ∀ y ∈ (z.toward d).take n, p y = false) (e : Direction) :
    ((z.cross d n).toward e).filter p = (z.toward e).filter p := by
  have hnone : ((z.toward d).take n).filter p = [] := by
    rw [List.filter_eq_nil_iff]
    intro y hy
    rw [hp y hy]
    decide
  rcases d.eq_or_eq_opposite e with rfl | rfl
  · rw [z.toward_cross]
    conv => rhs; rw [← List.take_append_drop n (z.toward e), List.filter_append, hnone]
    rfl
  · rw [z.toward_opposite_cross, List.filter_append, List.filter_reverse, hnone]
    rfl

/-- Crossing up to an element makes it the nearest one on the other side. -/
theorem toward_opposite_cross_append {z : Zipper α} {d : Direction} {pre post : List α} {x : α}
    (h : z.toward d = pre ++ x :: post) :
    (z.cross d (pre.length + 1)).toward d.opposite
      = x :: (pre.reverse ++ z.toward d.opposite) := by
  rw [z.toward_opposite_cross, h, List.take_length_add_append]
  simp

theorem toward_cross_append {z : Zipper α} {d : Direction} {pre post : List α} {x : α}
    (h : z.toward d = pre ++ x :: post) : (z.cross d (pre.length + 1)).toward d = post := by
  rw [z.toward_cross, h, List.drop_length_add_append]
  rfl

theorem crossed_cross (z : Zipper α) (d : Direction) {n : Nat} (hn : 0 < n) :
    (z.cross d n).crossed = some d := by
  cases d <;> simp [cross, Nat.pos_iff_ne_zero.mp hn]

/-! ### The element crossed last. -/

/-- The element crossed last is the nearest one on one of the two sides. -/
theorem touched_cases {z : Zipper α} {i : Nat} (h : z.touched = some i) :
    (∃ x b f, z = ⟨x :: b, f, some .forward⟩ ∧ b.length = i)
      ∨ (∃ x b f, z = ⟨b, x :: f, some .backward⟩ ∧ b.length = i) := by
  obtain ⟨b, f, c⟩ := z
  match c, b, f, h with
  | some .forward, x :: b, f, h => exact .inl ⟨x, b, f, rfl, Option.some.inj h⟩
  | some .backward, b, x :: f, h => exact .inr ⟨x, b, f, rfl, Option.some.inj h⟩

/-- After a crossing, the element crossed last is the nearest one on the other side. -/
theorem touched_of_toward {z : Zipper α} {d : Direction} {x : α} {xs : List α}
    (hd : z.crossed = some d) (hx : z.toward d.opposite = x :: xs) :
    ∃ i, z.touched = some i ∧ z.items[i]? = some x := by
  obtain ⟨b, f, c⟩ := z
  simp only at hd
  subst hd
  cases d
  · simp only [Direction.opposite, toward] at hx
    subst hx
    exact ⟨xs.length, rfl, by simp [items]⟩
  · simp only [Direction.opposite, toward] at hx
    subst hx
    exact ⟨b.length, rfl, by simp [items]⟩

/-- A crossing leaves an element that can be edited. -/
theorem touched_cross {z : Zipper α} {d : Direction} {n : Nat} (hn : 0 < n)
    (hle : n ≤ (z.toward d).length) : ∃ i, (z.cross d n).touched = some i := by
  have hne : (z.cross d n).toward d.opposite ≠ [] := by
    rw [z.toward_opposite_cross]
    apply List.append_ne_nil_of_left_ne_nil
    apply List.ne_nil_of_length_pos
    rw [List.length_reverse, List.length_take]
    omega
  obtain ⟨x, xs, hx⟩ := List.exists_cons_of_ne_nil hne
  obtain ⟨i, hi, -⟩ := touched_of_toward (z.crossed_cross d hn) hx
  exact ⟨i, hi⟩

/-- A forward crossing ends behind an element that lay in front of the gap. -/
theorem touched_cross_forward {z : Zipper α} {n : Nat} (hn : n < z.front.length) :
    ∃ i y, (z.cross .forward (n + 1)).touched = some i ∧ z.items[i]? = some y
      ∧ y ∈ z.front.take (n + 1) ∧ z.back.length ≤ i := by
  have hsplit : z.front.take (n + 1) = z.front.take n ++ [z.front[n]] :=
    List.take_succ_eq_append_getElem hn
  have hback : (z.cross .forward (n + 1)).back
      = z.front[n] :: ((z.front.take n).reverse ++ z.back) := by
    show (z.front.take (n + 1)).reverse ++ z.back = _
    rw [hsplit, List.reverse_append, List.reverse_singleton, List.append_assoc,
      List.singleton_append]
  have hmem : z.front[n] ∈ z.front.take (n + 1) := by
    rw [hsplit]
    exact List.mem_append_right _ List.mem_cons_self
  obtain ⟨i, hi, hyi⟩ := touched_of_toward (z.crossed_cross .forward (Nat.succ_pos n)) hback
  rw [items_cross] at hyi
  refine ⟨i, _, hi, hyi, hmem, ?_⟩
  rw [touched, z.crossed_cross .forward (Nat.succ_pos n), hback] at hi
  have hlen : ((z.front.take n).reverse ++ z.back).length = i := Option.some.inj hi
  rw [List.length_append] at hlen
  omega

/-- A crossing moves the gap. -/
theorem length_back_cross_ne {z : Zipper α} {d : Direction} {n : Nat} (hn : 0 < n)
    (hle : n ≤ (z.toward d).length) : (z.cross d n).back.length ≠ z.back.length := by
  cases d
  · simp only [toward] at hle
    simp only [cross, List.length_append, List.length_reverse, List.length_take]
    omega
  · simp only [toward] at hle
    simp only [cross, List.length_drop]
    omega

theorem touched_of_uncrossed {z : Zipper α} (h : z.crossed = none) : z.touched = none := by
  simp [touched, h]

theorem touched_lt {z : Zipper α} {i : Nat} (h : z.touched = some i) : i < z.items.length := by
  rw [length_items]
  obtain ⟨x, b, f, rfl, rfl⟩ | ⟨x, b, f, rfl, rfl⟩ := touched_cases h
  · simp only [List.length_cons]
    omega
  · simp only [List.length_cons]
    omega

theorem items_removed {z : Zipper α} {i : Nat} (h : z.touched = some i) :
    z.removed.items = z.items.eraseIdx i := by
  obtain ⟨x, b, f, rfl, rfl⟩ | ⟨x, b, f, rfl, rfl⟩ := touched_cases h
  · simp [removed, items, List.eraseIdx_append_of_length_le]
  · simp [removed, items, List.eraseIdx_append_of_length_le]

theorem items_replaced {z : Zipper α} {i : Nat} (h : z.touched = some i) (x : α) :
    (z.replaced x).items = z.items.set i x := by
  obtain ⟨y, b, f, rfl, rfl⟩ | ⟨y, b, f, rfl, rfl⟩ := touched_cases h
  · simp [replaced, items]
  · simp [replaced, items]

theorem crossed_removed (z : Zipper α) : z.removed.crossed = none := by
  unfold removed
  split
  · rfl
  · rfl
  · assumption

theorem crossed_replaced (z : Zipper α) (x : α) : (z.replaced x).crossed = z.crossed := by
  unfold replaced
  split <;> rfl

theorem touched_replaced (z : Zipper α) (x : α) : (z.replaced x).touched = z.touched := by
  obtain ⟨b, f, c⟩ := z
  match c, b, f with
  | none, _, _ => rfl
  | some .forward, [], _ => rfl
  | some .forward, _ :: _, _ => rfl
  | some .backward, _, [] => rfl
  | some .backward, _, _ :: _ => rfl

/-- A replacement puts the new element where the old one was. -/
theorem toward_opposite_replaced {z : Zipper α} {d : Direction} {y : α} {rest : List α}
    (hd : z.crossed = some d) (hy : z.toward d.opposite = y :: rest) (x : α) :
    (z.replaced x).toward d.opposite = x :: rest := by
  cases d
  · have hb : z.back = y :: rest := hy
    simp only [replaced, hd, hb, List.set_cons_zero]
    rfl
  · have hf : z.front = y :: rest := hy
    simp only [replaced, hd, hf, List.set_cons_zero]
    rfl

theorem length_removed_le (z : Zipper α) : z.removed.items.length ≤ z.items.length := by
  rw [length_items, length_items]
  unfold removed
  split
  · simp only [List.length_tail]
    omega
  · simp only [List.length_tail]
    omega
  · exact Nat.le_refl _

theorem length_replaced (z : Zipper α) (x : α) :
    (z.replaced x).items.length = z.items.length := by
  unfold replaced
  split <;> simp [length_items]

theorem length_back_replaced (z : Zipper α) (x : α) :
    (z.replaced x).back.length = z.back.length := by
  unfold replaced
  split <;> simp

theorem length_inserted (z : Zipper α) (x : α) :
    (z.inserted x).items.length = z.items.length + 1 := by
  simp [inserted, length_items]
  omega

theorem items_inserted (z : Zipper α) (x : α) :
    (z.inserted x).items = z.items.take z.back.length ++ x :: z.items.drop z.back.length := by
  simp [inserted, items]

end Zipper

end Cursors
