/-
  Cursors.Combinator.ListRing
  ───────────────────────────
  **GOING ROUND A LIST IN BOTH DIRECTIONS.**

  A cursor whose two ends are joined: moving forward from the back goes on
  at the front, moving backward from the front goes on at the back.  The
  seam has two positions, before the first element and after the last, and
  wrapping goes from one to the other; indexes are reported as those of the
  elements that the next moves will cross.
-/
import Cursors.Combinator.Ring
import Cursors.Primitive.Cursor

namespace Cursors

/-- The cursor in the list, the size that the list is expected to have, and how often the
cursor was replaced by a new one. -/
structure ListRing where
  cursor : Cursor := {}
  expected : Nat
  turns : Nat := 0
  deriving Repr, DecidableEq

namespace ListRing

variable {σ α : Type}

/-- The cursor inside the state after so many turns; once it has been replaced, it can no
longer be moved. -/
def cursorField (self : Field σ ListRing) (turns : Nat) : Field σ Cursor :=
  self.comp
    { get := ListRing.cursor
      set := fun c r => if r.turns = turns then { r with cursor := c } else r }

/-- The present cursor. -/
def present (self : Field σ ListRing) : Act σ (Field σ Cursor) := do
  return cursorField self (← self.read).turns

/-- Replace the cursor. -/
def turn (self : Field σ ListRing) (c : Cursor) : Act σ Unit :=
  self.modify fun r => { r with cursor := c, turns := r.turns + 1 }

/-- Fail if the list changed its size. -/
def check (self : Field σ ListRing) (items : Sequence σ α) : Act σ Unit := do
  checkSize .list (← self.read).expected items.length

/-! ## §1. Moves. -/

/-- Whether the list has an element. -/
def hasNext (self : Field σ ListRing) (items : Sequence σ α) : Act σ Bool := do
  check self items
  return (← self.read).expected > 0

/-- Stand before the first element. -/
def reset (self : Field σ ListRing) : Act σ Unit := turn self {}

/-- Cross the element after the gap, going round at the back. -/
def next (self : Field σ ListRing) (items : Sequence σ α) : Act σ α := do
  check self items
  if (← self.read).expected = 0 then Act.fail .ended
  else do
    -- At the back the gap goes to the other side of the seam before it moves.
    if !(← Cursor.hasNext (← present self) items) then reset self
    -- What a reading does to the ring meanwhile, it does to the cursor of that time.
    Cursor.next (← present self) items

/-- Whether the list has an element. -/
def hasPrevious (self : Field σ ListRing) (items : Sequence σ α) : Act σ Bool :=
  hasNext self items

/-- Cross the element before the gap, going round at the front. -/
def previous (self : Field σ ListRing) (items : Sequence σ α) : Act σ α := do
  check self items
  if (← self.read).expected = 0 then Act.fail .ended
  else do
    if !(← Cursor.hasPrevious (← present self)) then
      turn self { position := .plain (← self.read).expected }
    Cursor.previous (← present self) items

/-- The index of the element that `next` will cross. -/
def nextIndex (self : Field σ ListRing) (items : Sequence σ α) : Act σ Int := do
  check self items
  if ← Cursor.hasNext (← present self) items then Cursor.nextIndex (← present self)
  else return 0

/-- The index of the element that `previous` will cross. -/
def previousIndex (self : Field σ ListRing) (items : Sequence σ α) : Act σ Int := do
  check self items
  if ← Cursor.hasPrevious (← present self) then Cursor.previousIndex (← present self)
  else return ((← self.read).expected : Int) - 1

/-! ## §2. Edits. -/

/-- Remove the element crossed last. -/
def remove (self : Field σ ListRing) (items : Sequence σ α) : Act σ Unit := do
  check self items
  Cursor.remove (← present self) items
  self.modify fun r => { r with expected := r.expected - 1 }

/-- Replace the element crossed last. -/
def set (self : Field σ ListRing) (items : Sequence σ α) (x : α) : Act σ Unit := do
  check self items
  Cursor.set (← present self) items x

/-- Put an element in just before the gap. -/
def add (self : Field σ ListRing) (items : Sequence σ α) (x : α) : Act σ Unit := do
  check self items
  Cursor.add (← present self) items x
  self.modify fun r => { r with expected := r.expected + 1 }

/-- The ring as a source. -/
def twoWay (self : Field σ ListRing) (items : Sequence σ α) : TwoWay σ α where
  hasNext := hasNext self items
  next := next self items
  remove := remove self items
  hasPrevious := hasPrevious self items
  previous := previous self items
  nextIndex := nextIndex self items
  previousIndex := previousIndex self items
  set := set self items
  add := add self items

end ListRing

end Cursors
