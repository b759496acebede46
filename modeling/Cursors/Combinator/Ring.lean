/-
  Cursors.Combinator.Ring
  ───────────────────────
  **GOING ROUND A COLLECTION FOR EVER.**

  A ring starts again from the front whenever it reaches the back, and ends
  only once the collection is empty.  It keeps the size that it expects the
  collection to have: its own removals adjust it, and any other change of
  the size is reported before anything is touched.

  `Ring` goes by positions and can remove the element given last; `Cycle`
  serves collections without positions and opens a new walk for each turn.
-/
import Cursors.Action

namespace Cursors

variable {σ α ι : Type}

/-- Fail if the size is not the expected one. -/
def checkSize (what : Looped) (expected : Nat) (length : Act σ Nat) : Act σ Unit := do
  let actual ← length
  if actual = expected then pure () else Act.fail (.resized what expected actual)

/-! ## §1. By position. -/

/-- The expected size, the position of the next element, and that of the element given last. -/
structure Ring where
  expected : Nat
  position : Nat := 0
  last : Option Nat := none
  deriving Repr, DecidableEq

namespace Ring

/-- Fail if the collection changed its size. -/
def check (self : Field σ Ring) (items : Sequence σ α) : Act σ Unit := do
  checkSize .collection (← self.read).expected items.length

/-- Whether the collection has an element. -/
def hasNext (self : Field σ Ring) (items : Sequence σ α) : Act σ Bool := do
  check self items
  return (← self.read).expected > 0

/-- The next element, starting over after the last one. -/
def next (self : Field σ Ring) (items : Sequence σ α) : Act σ α := do
  check self items
  if (← self.read).expected = 0 then Act.fail .ended
  else do
    self.modify fun r =>
      { r with position := if r.position ≥ r.expected then 0 else r.position }
    -- The ring has gone round even if reading fails.
    let x ← items.get (.plain (← self.read).position)
    self.modify fun r => { r with last := some r.position, position := r.position + 1 }
    return x

/-- Remove the element given last. -/
def remove (self : Field σ Ring) (items : Sequence σ α) : Act σ Unit := do
  check self items
  match (← self.read).last with
  | none => Act.fail (.notMoved .remove false)
  | some i => do
      items.delete (.plain i)
      -- The element after the removed one now has its position.
      self.modify fun r => { expected := r.expected - 1, position := i, last := none }

/-- Go back to the front. -/
def reset (self : Field σ Ring) : Act σ Unit :=
  self.modify ({ · with position := 0, last := none })

/-- The ring as a source. -/
def forward (self : Field σ Ring) (items : Sequence σ α) : Forward σ α where
  hasNext := hasNext self items
  next := next self items
  remove := remove self items

end Ring

/-! ## §2. By repeated walks. -/

/-- The expected size and the walk of the present turn. -/
structure Cycle (ι : Type) where
  expected : Nat
  walk : ι
  deriving Repr, DecidableEq

namespace Cycle

/-- Fail if the collection changed its size. -/
def check (self : Field σ (Cycle ι)) (length : Act σ Nat) : Act σ Unit := do
  checkSize .collection (← self.read).expected length

/-- Whether the collection has an element. -/
def hasNext (self : Field σ (Cycle ι)) (length : Act σ Nat) : Act σ Bool := do
  check self length
  return (← self.read).expected > 0

/-- Open a new walk. -/
def reset (self : Field σ (Cycle ι)) (begin : Act σ ι) : Act σ Unit := do
  let walk ← begin
  self.modify ({ · with walk := walk })

/-- The next element of the walk, or the first one of a new walk. -/
def next (self : Field σ (Cycle ι)) (length : Act σ Nat) (begin : Act σ ι)
    (pull : ι → Act σ α) : Act σ α := do
  check self length
  if (← self.read).expected = 0 then Act.fail .ended
  else
    match ← Act.attempt Failure.isEnd (pull (← self.read).walk) with
    | .ok x => return x
    | .error _ => do
        reset self begin
        pull (← self.read).walk

end Cycle

end Cursors
