/-
  Cursors.Proofs.Cursor
  ─────────────────────
  **A CURSOR IN A LIST MOVES AS ITS ZIPPER.**

  One lemma for each operation of a cursor.  The list and the cursor are
  any two parts of a state of which neither shows in the other; each lemma
  gives the outcome and says exactly which parts are written, so that
  whatever else the state holds is known to stay.
-/
import Cursors.Primitive.Cursor
import Cursors.Proofs.Zipper

namespace Cursors

variable {σ τ υ α : Type}

/-! ## §1. The zipper that a cursor shows. -/

/-- What is written into one part does not show in the other. -/
structure Field.Apart (a : Field σ τ) (b : Field σ υ) : Prop where
  get_right : ∀ t s, b.get (a.set t s) = b.get s
  get_left : ∀ u s, a.get (b.set u s) = a.get s

theorem Field.read_apply (part : Field σ τ) (s : σ) : part.read s = .value (part.get s) s := rfl

theorem Field.modify_apply (part : Field σ τ) (f : τ → τ) (s : σ) :
    part.modify f s = .value () (part.set (f (part.get s)) s) := rfl

namespace Cursor

/-- The cursor stands in the gap of `z`, and moves up to `bound` are exact. -/
structure Spans (c : Cursor) (bound : Nat) (z : Zipper α) : Prop where
  length_le : z.items.length ≤ bound
  position : c.position.StandsAt z.back.length bound
  last : Option.Rel (fun p i => Place.StandsAt p i bound) c.last z.touched

/-- A new cursor spans the list from its position on. -/
theorem spans_ofList {p : Place} {n bound : Nat} {xs : List α} (hp : p.StandsAt n bound)
    (hn : n ≤ xs.length) (hxs : xs.length ≤ bound) :
    Spans { position := p } bound (Zipper.ofList xs n) where
  length_le := by simpa using hxs
  position := by
    have hlen : (Zipper.ofList xs n).back.length = n := by simp [Zipper.ofList, hn]
    rw [hlen]
    exact hp
  last := .none

section

variable {list : Field σ (List α)} {cursor : Field σ Cursor} {bound : Nat} {z : Zipper α}
  {s : σ}

/-! ## §2. Moves. -/

theorem hasMore_apply (hlist : list.get s = z.items) (hz : (cursor.get s).Spans bound z)
    (d : Direction) :
    (twoWay cursor (.ofList list)).hasMore d s = .value (!(z.toward d).isEmpty) s := by
  have hpos := hz.position.toInt_eq
  cases d
  · show Outcome.value (decide ((cursor.get s).position.toInt < (list.get s).length)) s = _
    rw [hpos, hlist, z.length_items]
    cases hf : z.front with
    | nil => simp [Zipper.toward, hf]
    | cons x rest =>
        simp only [Zipper.toward, hf, List.length_cons, List.isEmpty_cons, Bool.not_false,
          decide_eq_true_eq, Outcome.value.injEq, and_true]
        omega
  · show Outcome.value (decide ((cursor.get s).position.toInt > 0)) s = _
    rw [hpos]
    cases hb : z.back <;> simp [Zipper.toward, hb]

/-- A step past either end fails and moves nothing. -/
theorem step_of_toward_nil (hlist : list.get s = z.items) (hz : (cursor.get s).Spans bound z)
    {d : Direction} (hd : z.toward d = []) :
    (twoWay cursor (.ofList list)).step d s = .failure .ended s := by
  have hpos := hz.position.toInt_eq
  cases d
  · have hf : z.front = [] := hd
    have hlen := z.length_items
    rw [← hlist, hf] at hlen
    have hend : (cursor.get s).position.toInt ≥ (list.get s).length := by
      rw [hpos, hlen]; simp
    show next cursor (.ofList list) s = _
    simp only [next, Field.read, Sequence.ofList, Act.bind_apply, Act.reading_apply]
    rw [if_pos hend]
    rfl
  · have hb : z.back = [] := hd
    have hstart : (cursor.get s).position.toInt ≤ 0 := by rw [hpos, hb]; simp
    show previous cursor (.ofList list) s = _
    simp only [previous, Field.read, Act.bind_apply, Act.reading_apply]
    rw [if_pos hstart]
    rfl

/-- Reading an exact position in the list. -/
theorem get_ofList_apply {p : Place} {i : Nat} {x : α} (hp : p.StandsAt i bound)
    (hx : (list.get s)[i]? = some x) : (Sequence.ofList list).get p s = .value x s := by
  have hi : i < (list.get s).length := (List.getElem?_eq_some_iff.mp hx).1
  simp only [Sequence.ofList, Field.read, Act.bind_apply, Act.reading_apply]
  rw [hp.index? hi, Option.bind_some, hx]
  rfl

theorem next_of_front (hlist : list.get s = z.items) (hz : (cursor.get s).Spans bound z)
    {x : α} {rest : List α} (hx : z.front = x :: rest) :
    ∃ c, next cursor (.ofList list) s = .value x (cursor.set c s)
      ∧ c.Spans bound (z.cross .forward 1) := by
  have hpos := hz.position
  have hlen := z.length_items
  have hxs : (list.get s)[z.back.length]? = some x := by
    rw [hlist]; simp [Zipper.items, hx]
  have hlt : z.back.length < bound := by
    have := hz.length_le
    rw [hlen, hx] at this
    simp at this
    omega
  refine ⟨{ position := (cursor.get s).position.following,
            last := some (cursor.get s).position }, ?_, ?_⟩
  · have hmore : ¬ (cursor.get s).position.toInt ≥ (list.get s).length := by
      rw [hpos.toInt_eq, hlist, hlen, hx, List.length_cons]
      omega
    simp only [next, Field.read, Act.bind_apply, Act.reading_apply]
    rw [show (Sequence.ofList list).length s = .value (list.get s).length s from rfl]
    simp only [if_neg hmore, Act.bind_apply, get_ofList_apply hpos hxs]
    rfl
  · refine ⟨by rw [z.items_cross]; exact hz.length_le, ?_, ?_⟩
    · simpa [Zipper.cross, hx] using hpos.following hlt
    · simpa [Zipper.cross, Zipper.touched, hx] using Option.Rel.some hpos

theorem previous_of_back (hapart : cursor.Apart list) (hlist : list.get s = z.items)
    (hz : (cursor.get s).Spans bound z) {x : α} {rest : List α} (hx : z.back = x :: rest) :
    ∃ c, previous cursor (.ofList list) s = .value x (cursor.set c s)
      ∧ c.Spans bound (z.cross .backward 1) := by
  have hpos : (cursor.get s).position.StandsAt (rest.length + 1) bound := by
    simpa [hx] using hz.position
  have hback := hpos.preceding
  refine ⟨{ position := (cursor.get s).position.preceding,
            last := some (cursor.get s).position.preceding }, ?_, ?_⟩
  · have hmore : ¬ (cursor.get s).position.toInt ≤ 0 := by
      rw [hpos.toInt_eq]; omega
    simp only [previous, Field.read, Act.bind_apply, Act.reading_apply]
    rw [if_neg hmore]
    simp only [Act.bind_apply, Field.write, Act.update_apply]
    -- The element is read after the cursor was written, which leaves the list alone.
    apply get_ofList_apply hback
    rw [hapart.get_right, hlist]
    simp [Zipper.items, hx]
  · refine ⟨by rw [z.items_cross]; exact hz.length_le, ?_, ?_⟩
    · simpa [Zipper.cross, hx] using hback
    · simpa [Zipper.cross, Zipper.touched, hx] using Option.Rel.some hback

/-- A step takes the nearest element to the other side. -/
theorem step_of_toward_cons (hapart : cursor.Apart list) (hlist : list.get s = z.items)
    (hz : (cursor.get s).Spans bound z) {d : Direction} {x : α} {rest : List α}
    (hx : z.toward d = x :: rest) :
    ∃ c, (twoWay cursor (.ofList list)).step d s = .value x (cursor.set c s)
      ∧ c.Spans bound (z.cross d 1) := by
  cases d
  · exact next_of_front hlist hz hx
  · exact previous_of_back hapart hlist hz hx

/-! ## §3. Edits. -/

theorem crossed_of_touched (hz : (cursor.get s).Spans bound z) {i : Nat}
    (hi : z.touched = some i) (edit : Edit) :
    ∃ p, crossed cursor edit s = .value p s ∧ p.StandsAt i bound := by
  have hlast := hz.last
  rw [hi] at hlast
  match hc : (cursor.get s).last, hlast with
  | some p, .some hp =>
      refine ⟨p, ?_, hp⟩
      simp only [crossed, Field.read, Act.bind_apply, Act.reading_apply]
      rw [hc, Option.filter_some, if_pos hp.fromFront]
      rfl

theorem crossed_of_untouched (hz : (cursor.get s).Spans bound z) (hi : z.touched = none)
    (edit : Edit) : crossed cursor edit s = .failure (.notMoved edit true) s := by
  have hlast := hz.last
  rw [hi] at hlast
  match hc : (cursor.get s).last, hlast with
  | none, .none =>
      simp only [crossed, Field.read, Act.bind_apply, Act.reading_apply]
      rw [hc]
      rfl

theorem remove_of_untouched (hz : (cursor.get s).Spans bound z) (hi : z.touched = none) :
    remove cursor (.ofList list) s = .failure (.notMoved .remove true) s := by
  simp only [remove, Act.bind_apply, crossed_of_untouched hz hi]

theorem set_of_untouched (hz : (cursor.get s).Spans bound z) (hi : z.touched = none) (x : α) :
    set cursor (.ofList list) x s = .failure (.notMoved .set true) s := by
  simp only [set, Act.bind_apply, crossed_of_untouched hz hi]

/-- A removal drops the element crossed last. -/
theorem remove_of_touched (hapart : cursor.Apart list) (hlist : list.get s = z.items)
    (hz : (cursor.get s).Spans bound z) {i : Nat} (hi : z.touched = some i) :
    ∃ c, remove cursor (.ofList list) s
        = .value () (cursor.set c (list.set (z.items.eraseIdx i) s))
      ∧ c.Spans bound z.removed := by
  obtain ⟨p, hcrossed, hp⟩ := crossed_of_touched hz hi .remove
  have hlt : i < (list.get s).length := by rw [hlist]; exact z.touched_lt hi
  have hpos := hz.position
  refine ⟨{ position := if p.toInt < (cursor.get s).position.toInt
              then (cursor.get s).position.preceding else (cursor.get s).position }, ?_, ?_⟩
  · simp only [remove, Act.bind_apply, hcrossed, Sequence.ofList, Field.read, Field.modify,
      Act.reading_apply]
    rw [hp.index? hlt]
    simp only [Act.update_apply, hlist, hapart.get_left]
  · have hle := hz.length_le
    refine ⟨?_, ?_, ?_⟩
    · rw [Zipper.items_removed hi, List.length_eraseIdx]
      split <;> omega
    · -- The position moves only with an element behind it.
      obtain ⟨x, b, f, rfl, rfl⟩ | ⟨x, b, f, rfl, rfl⟩ := Zipper.touched_cases hi
      · have hback : (cursor.get s).position.StandsAt (b.length + 1) bound := hpos
        rw [if_pos (by rw [hp.toInt_eq, hback.toInt_eq]; omega)]
        exact hback.preceding
      · have hfront : (cursor.get s).position.StandsAt b.length bound := hpos
        rw [if_neg (by rw [hp.toInt_eq, hfront.toInt_eq]; omega)]
        exact hfront
    · obtain ⟨x, b, f, rfl, rfl⟩ | ⟨x, b, f, rfl, rfl⟩ := Zipper.touched_cases hi <;> exact .none

/-- A replacement replaces the element crossed last. -/
theorem set_of_touched (hlist : list.get s = z.items) (hz : (cursor.get s).Spans bound z)
    {i : Nat} (hi : z.touched = some i) (x : α) :
    set cursor (.ofList list) x s = .value () (list.set (z.items.set i x) s)
      ∧ (cursor.get s).Spans bound (z.replaced x) := by
  obtain ⟨p, hcrossed, hp⟩ := crossed_of_touched hz hi .set
  have hlt : i < (list.get s).length := by rw [hlist]; exact z.touched_lt hi
  constructor
  · simp only [set, Act.bind_apply, hcrossed, Sequence.ofList, Field.read, Field.modify,
      Act.reading_apply]
    rw [hp.index? hlt]
    simp only [Act.update_apply, hlist]
  · have hpos := hz.position
    have hlast := hz.last
    refine ⟨?_, ?_, ?_⟩
    · rw [Zipper.items_replaced hi, List.length_set]
      exact hz.length_le
    · obtain ⟨y, b, f, rfl, rfl⟩ | ⟨y, b, f, rfl, rfl⟩ := Zipper.touched_cases hi <;> exact hpos
    · obtain ⟨y, b, f, rfl, rfl⟩ | ⟨y, b, f, rfl, rfl⟩ := Zipper.touched_cases hi <;> exact hlast

/-- An insertion puts the new element nearest behind the gap. -/
theorem add_apply (hapart : cursor.Apart list) (hlist : list.get s = z.items)
    (hz : (cursor.get s).Spans bound z) (hroom : z.items.length < bound) (x : α) :
    ∃ c, add cursor (.ofList list) x s
        = .value () (cursor.set c (list.set (z.inserted x).items s))
      ∧ c.Spans bound (z.inserted x) := by
  have hpos := hz.position
  have hlen := z.length_items
  refine ⟨{ position := (cursor.get s).position.following }, ?_, ?_⟩
  · have hpoint : Place.insertionPoint (list.get s).length (cursor.get s).position.toInt
        = z.back.length := by
      rw [hpos.toInt_eq, hlist, Place.insertionPoint, if_neg (by omega)]
      simp only [Int.toNat_natCast]
      omega
    rw [z.items_inserted, ← hpoint]
    simp only [add, Act.bind_apply, Sequence.ofList, Field.read, Field.modify,
      Act.reading_apply, Act.update_apply, hlist, hapart.get_left]
  · refine ⟨?_, ?_, .none⟩
    · rw [z.length_inserted]
      omega
    · exact hpos.following (by omega)

end

end Cursor

end Cursors
