/-
  Cursors.Primitive.Cursor
  ────────────────────────
  **A CURSOR IN A CONTAINER.**

  The cursor stands in a gap between two elements and moves across one
  element at a time.  The element crossed last can be replaced or removed,
  on whichever side of the gap it lies; a new element goes in just before
  the gap.  The container itself is edited, and an edit other than a
  replacement forgets which element was crossed last.

  The effects come in a fixed order, which shows when the container refuses:
  `next` reads before it moves, `previous` moves before it reads.  A cursor
  whose position wraps around to a negative one stands before the front for
  `previous` and reads from the back for `next`; edits need a last position
  that is not negative.
-/
import Cursors.Action

namespace Cursors

/-- The gap, by the position of the element after it, and the position of the element crossed
last. -/
structure Cursor where
  position : Place := .plain 0
  last : Option Place := none
  deriving Repr, DecidableEq

namespace Cursor

variable {σ α : Type}

/-! ## §1. Moves. -/

/-- Whether an element lies after the gap. -/
def hasNext (self : Field σ Cursor) (items : Sequence σ α) : Act σ Bool := do
  let here ← self.read
  return here.position.toInt < (← items.length)

/-- Cross the element after the gap. -/
def next (self : Field σ Cursor) (items : Sequence σ α) : Act σ α := do
  let here ← self.read
  if here.position.toInt ≥ (← items.length) then Act.fail .ended
  else do
    -- Reading comes first: if it fails, the gap has not moved.
    let x ← items.get here.position
    self.modify fun c => { position := c.position.following, last := some c.position }
    return x

/-- Whether an element lies before the gap. -/
def hasPrevious (self : Field σ Cursor) : Act σ Bool := do
  return (← self.read).position.toInt > 0

/-- Cross the element before the gap. -/
def previous (self : Field σ Cursor) (items : Sequence σ α) : Act σ α := do
  let here ← self.read
  if here.position.toInt ≤ 0 then Act.fail .ended
  else do
    -- The gap moves first: it has moved even if reading fails.
    self.write { position := here.position.preceding, last := some here.position.preceding }
    items.get here.position.preceding

/-- The number of elements before the gap. -/
def nextIndex (self : Field σ Cursor) : Act σ Int := do
  return (← self.read).position.toInt

/-- The position of the element before the gap, or `-1`. -/
def previousIndex (self : Field σ Cursor) : Act σ Int := do
  return (← nextIndex self) - 1

/-! ## §2. Edits. -/

/-- The position of the element crossed last, if it can be edited. -/
def crossed (self : Field σ Cursor) (edit : Edit) : Act σ Place := do
  match (← self.read).last.filter Place.fromFront with
  | none => Act.fail (.notMoved edit true)
  | some i => pure i

/-- Remove the element crossed last. -/
def remove (self : Field σ Cursor) (items : Sequence σ α) : Act σ Unit := do
  let i ← crossed self .remove
  items.delete i
  -- An element before the gap takes the gap along when it goes.
  self.modify fun c =>
    { position := if i.toInt < c.position.toInt then c.position.preceding else c.position,
      last := none }

/-- Replace the element crossed last. -/
def set (self : Field σ Cursor) (items : Sequence σ α) (x : α) : Act σ Unit := do
  items.set (← crossed self .set) x

/-- Put an element in just before the gap. -/
def add (self : Field σ Cursor) (items : Sequence σ α) (x : α) : Act σ Unit := do
  items.insert (← self.read).position x
  self.modify fun c => { position := c.position.following, last := none }

/-- Go back to the front. -/
def reset (self : Field σ Cursor) : Act σ Unit := self.write {}

/-- The cursor as a source. -/
def twoWay (self : Field σ Cursor) (items : Sequence σ α) : TwoWay σ α where
  hasNext := hasNext self items
  next := next self items
  remove := remove self items
  hasPrevious := hasPrevious self
  previous := previous self items
  nextIndex := nextIndex self
  previousIndex := previousIndex self
  set := set self items
  add := add self items

end Cursor

end Cursors
