/-
  Cursors.Proofs.Chain.Tally
  ──────────────────────────
  **WHAT A CHAIN OF LISTS OWES ITS CALLER.**

  A tally keeps the lists of a chain as they were at the start and marks
  what has been removed from them.  Elements are numbered throughout: those
  of the first list, then those of the second one, and so on.

      next      hands out the element whose turn it is
      remove    marks the element handed out last, if that was not removed

  `Tally.respond` says what each call answers and where it leads.  Marking
  goes through a row of lists to the one that holds the number, so that the
  tally of a chain is put together from the tallies of its members.
-/
import Cursors.Proofs.Bench

namespace Cursors

variable {α β : Type}

/-! ## §1. Entries. -/

/-- An element of a list, and whether it has been removed. -/
structure Entry (α : Type) where
  item : α
  removed : Bool := false
  deriving Repr, DecidableEq

namespace Entry

/-- What is left of a list. -/
def left (row : List (Entry α)) : List α := (row.filter fun e => !e.removed).map item

theorem left_append (row row' : List (Entry α)) : left (row ++ row') = left row ++ left row' := by
  rw [left, List.filter_append, List.map_append]
  rfl

/-- Nothing is missing of a list from which nothing has been removed. -/
theorem left_of_present {row : List (Entry α)} (h : ∀ e ∈ row, e.removed = false) :
    left row = row.map item := by
  rw [left, List.filter_eq_self.mpr]
  intro e he
  rw [h e he]
  rfl

/-- The same element, removed. -/
def gone (e : Entry α) : Entry α := { e with removed := true }

/-- Mark the `k`-th element of some lists as removed. -/
def mark : Nat → List (List (Entry α)) → List (List (Entry α))
  | _, [] => []
  | k, row :: rows =>
      if k < row.length then row.modify k gone :: rows else row :: mark (k - row.length) rows

theorem modify_append (before : List (Entry α)) (e : Entry α) (after : List (Entry α)) :
    (before ++ e :: after).modify before.length gone = before ++ e.gone :: after := by
  rw [List.modify_eq_take_cons_drop (by simp), List.take_left, List.getElem_append_right
    (Nat.le_refl _)]
  simp

theorem mark_singleton (k : Nat) (row : List (Entry α)) : mark k [row] = [row.modify k gone] := by
  unfold mark
  split
  · rfl
  · rw [List.modify_eq_self (by omega)]
    rfl

theorem length_flatten_mark (k : Nat) (rows : List (List (Entry α))) :
    (mark k rows).flatten.length = rows.flatten.length := by
  induction rows generalizing k with
  | nil => rfl
  | cons row rows ih =>
      unfold mark
      split
      · simp only [List.flatten_cons, List.length_append, List.length_modify]
      · simp only [List.flatten_cons, List.length_append, ih]

/-- A mark that falls on the first lists leaves the others alone. -/
theorem mark_append_left {k : Nat} {rows : List (List (Entry α))} (h : k < rows.flatten.length)
    (rows' : List (List (Entry α))) : mark k (rows ++ rows') = mark k rows ++ rows' := by
  induction rows generalizing k with
  | nil => exact absurd h (Nat.not_lt_zero k)
  | cons row rows ih =>
      rw [List.cons_append, mark, mark]
      split
      · rfl
      · rw [List.flatten_cons, List.length_append] at h
        rw [ih (by omega), List.cons_append]

/-- A mark that falls behind the first lists leaves these alone. -/
theorem mark_append_right (k : Nat) (rows rows' : List (List (Entry α))) :
    mark (rows.flatten.length + k) (rows ++ rows') = rows ++ mark k rows' := by
  induction rows with
  | nil => rw [List.flatten_nil, List.length_nil, Nat.zero_add, List.nil_append, List.nil_append]
  | cons row rows ih =>
      rw [List.cons_append, mark, List.flatten_cons, List.length_append,
        if_neg (by omega), Nat.add_assoc, Nat.add_sub_cancel_left, ih, List.cons_append]

/-- A mark does not change which elements there are. -/
theorem map_item_modify (k : Nat) (row : List (Entry α)) :
    (row.modify k gone).map item = row.map item := by
  apply List.ext_getElem?
  intro i
  rw [List.getElem?_map, List.getElem?_map, List.getElem?_modify]
  split <;> cases row[i]? <;> rfl

/-- Marking does not change which elements there are. -/
theorem map_item_flatten_mark (k : Nat) (rows : List (List (Entry α))) :
    (mark k rows).flatten.map item = rows.flatten.map item := by
  induction rows generalizing k with
  | nil => rfl
  | cons row rows ih =>
      unfold mark
      split
      · rw [List.flatten_cons, List.flatten_cons, List.map_append, List.map_append,
          map_item_modify]
      · rw [List.flatten_cons, List.flatten_cons, List.map_append, List.map_append, ih]

end Entry

/-! ## §2. Tallies. -/

/-- The lists with their marks, the number of elements handed out, and whether the last of these
can still be removed. -/
structure Tally (α : Type) where
  rows : List (List (Entry α))
  given : Nat := 0
  held : Bool := false
  deriving Repr, DecidableEq

namespace Tally

/-- Nothing has been handed out of the lists. -/
def start (lists : List (List α)) : Tally α where
  rows := lists.map fun xs => xs.map ({ item := · })

/-- The number of elements that there were at the start. -/
def size (t : Tally α) : Nat := t.rows.flatten.length

/-- The element whose turn it is. -/
def coming (t : Tally α) : Option α := t.rows.flatten[t.given]?.map Entry.item

/-- What is left of each list. -/
def left (t : Tally α) : List (List α) := t.rows.map Entry.left

/-- The next element has been handed out. -/
def passed (t : Tally α) : Tally α := { t with given := t.given + 1, held := true }

/-- The element handed out last has been removed. -/
def cleared (t : Tally α) : Tally α :=
  { t with rows := Entry.mark (t.given - 1) t.rows, held := false }

/-- All elements that there were at the start, in order. -/
def items (t : Tally α) : List α := t.rows.flatten.map Entry.item

/-- What a call answers, and where it leads. -/
def respond (t : Tally α) : Pull → Except Failure (Answer α) × Tally α
  | .hasNext => (.ok (.truth (decide (t.given < t.size))), t)
  | .next =>
      match t.coming with
      | some x => (.ok (.element x), t.passed)
      | none => (.error .ended, t)
  | .remove => if t.held then (.ok .done, t.cleared) else (.error (.notMoved .remove false), t)

/-- What calls answer, one after the other, and what is left of the lists after each. -/
def report : List Pull → Tally α → List (Except Failure (Answer α) × List (List α))
  | [], _ => []
  | call :: calls, t =>
      ((t.respond call).1, (t.respond call).2.left) :: report calls (t.respond call).2

theorem coming_eq_none_iff {t : Tally α} : t.coming = none ↔ t.size ≤ t.given := by
  rw [coming, Option.map_eq_none_iff, List.getElem?_eq_none_iff]
  rfl

theorem respond_next_of_none {t : Tally α} (h : t.coming = none) :
    t.respond .next = (.error .ended, t) := by
  simp only [respond, h]

theorem respond_next_of_some {t : Tally α} {x : α} (h : t.coming = some x) :
    t.respond .next = (.ok (.element x), t.passed) := by
  simp only [respond, h]

theorem respond_remove_of_held {t : Tally α} (h : t.held = true) :
    t.respond .remove = (.ok .done, t.cleared) := by
  simp only [respond, h, if_true]

theorem respond_remove_of_not_held {t : Tally α} (h : t.held = false) :
    t.respond .remove = (.error (.notMoved .remove false), t) := by
  simp only [respond, h, Bool.false_eq_true, if_false]

theorem drop_given_of_none {t : Tally α} (h : t.coming = none) : t.items.drop t.given = [] := by
  rw [List.drop_eq_nil_iff, items, List.length_map]
  exact coming_eq_none_iff.mp h

theorem drop_given_of_some {t : Tally α} {x : α} (h : t.coming = some x) :
    t.items.drop t.given = x :: t.passed.items.drop t.passed.given := by
  have hx : t.items[t.given]? = some x := by
    rw [items, List.getElem?_map]
    exact h
  obtain ⟨hlt, rfl⟩ := List.getElem?_eq_some_iff.mp hx
  exact List.drop_eq_getElem_cons hlt

theorem size_cleared (t : Tally α) : t.cleared.size = t.size := Entry.length_flatten_mark _ _

theorem items_cleared (t : Tally α) : t.cleared.items = t.items :=
  Entry.map_item_flatten_mark _ _

theorem items_start (lists : List (List α)) : (start lists).items = lists.flatten := by
  have hflatten : (start lists).rows.flatten = lists.flatten.map ({ item := · }) :=
    List.map_flatten.symm
  rw [items, hflatten, List.map_map]
  exact List.map_id _

/-! ## §3. The elements that come out. -/

/-- The elements that calls have answered with. -/
def elements (report : List (Except Failure (Answer α) × β)) : List α :=
  report.filterMap fun seen =>
    match seen.1 with
    | .ok (.element x) => some x
    | _ => none

/-- Whatever is removed in between, the elements come out in order and none is left out. -/
theorem elements_report_isPrefix (calls : List Pull) (t : Tally α) :
    elements (t.report calls) <+: t.items.drop t.given := by
  induction calls generalizing t with
  | nil => exact List.nil_prefix
  | cons call calls ih =>
      cases call with
      | hasNext => exact ih t
      | next =>
          cases hcoming : t.coming with
          | none =>
              rw [report, respond_next_of_none hcoming]
              exact ih t
          | some x =>
              rw [report, respond_next_of_some hcoming, drop_given_of_some hcoming]
              exact List.cons_prefix_cons.mpr ⟨rfl, ih t.passed⟩
      | remove =>
          cases hheld : t.held with
          | false =>
              rw [report, respond_remove_of_not_held hheld]
              exact ih t
          | true =>
              rw [report, respond_remove_of_held hheld, ← t.items_cleared]
              exact ih t.cleared

/-- Once the end was answered all of them have come out. -/
theorem elements_report_of_ended (calls : List Pull) (t : Tally α)
    (hended : ∃ seen ∈ t.report calls, seen.1 = .error .ended) :
    elements (t.report calls) = t.items.drop t.given := by
  induction calls generalizing t with
  | nil =>
      obtain ⟨seen, hmem, -⟩ := hended
      cases hmem
  | cons call calls ih =>
      -- The end is answered by a later call, if not by this one.
      have hlater : ∀ answer, t.respond call = answer → answer.1 ≠ .error .ended →
          ∃ seen ∈ answer.2.report calls, seen.1 = .error .ended := by
        rintro answer rfl hanswer
        obtain ⟨seen, hmem, hseen⟩ := hended
        obtain rfl | hmem := List.mem_cons.mp hmem
        · exact absurd hseen hanswer
        · exact ⟨seen, hmem, hseen⟩
      cases call with
      | hasNext => exact ih t (hlater _ rfl nofun)
      | next =>
          cases hcoming : t.coming with
          | none =>
              have hnothing := elements_report_isPrefix (.next :: calls) t
              rw [drop_given_of_none hcoming] at hnothing ⊢
              exact List.prefix_nil.mp hnothing
          | some x =>
              have hrespond := respond_next_of_some hcoming
              rw [report, hrespond, drop_given_of_some hcoming]
              exact congrArg (x :: ·) (ih t.passed (hlater _ hrespond nofun))
      | remove =>
          cases hheld : t.held with
          | false =>
              have hrespond := respond_remove_of_not_held hheld
              rw [report, hrespond]
              exact ih t (hlater _ hrespond nofun)
          | true =>
              have hrespond := respond_remove_of_held hheld
              rw [report, hrespond, ← t.items_cleared]
              exact ih t.cleared (hlater _ hrespond nofun)

end Tally

end Cursors
