/-
  Cursors.Primitive.Window
  ────────────────────────
  **A WINDOW ON A CONTAINER OF FIXED SIZE.**

  A window covers the positions from `start` up to, not including, `stop`.
  It is walked forward by `Window` and in both directions by `ListWindow`,
  which reports indexes relative to the start and can replace the element
  crossed last.  Nothing can be added or removed.
-/
import Cursors.Action

namespace Cursors

/-! ## §1. Forward. -/

/-- A window and the position of its next element. -/
structure Window where
  start : Place
  stop : Place
  index : Place
  deriving Repr, DecidableEq

namespace Window

variable {σ α : Type}

/-- Check the bounds of a window from `start` to `stop` on a container of `size` elements, one
after the other. -/
def checkBounds (size : Nat) (start stop : Int) : Except Failure Unit :=
  if start < 0 ∨ start > size then .error .startOutside
  else if stop < 0 ∨ stop > size then .error .endOutside
  else if stop < start then .error .endBeforeStart
  else .ok ()

/-- The window from `start` to `stop`, before its first element. -/
def fresh (start stop : Place) : Window := ⟨start, stop, start⟩

/-- Whether the window has a further element. -/
def hasNext (self : Field σ Window) : Act σ Bool := do
  let here ← self.read
  return here.index.toInt < here.stop.toInt

/-- Read the next element and move on. -/
def next (self : Field σ Window) (items : Sequence σ α) : Act σ α := do
  let here ← self.read
  if here.index.toInt ≥ here.stop.toInt then Act.fail .ended
  else do
    let x ← items.get here.index
    self.modify fun w => { w with index := w.index.following }
    return x

/-- Go back to the start of the window. -/
def reset (self : Field σ Window) : Act σ Unit :=
  self.modify fun w => { w with index := w.start }

/-- The window as a source. -/
def forward (owner : String) (self : Field σ Window) (items : Sequence σ α) : Forward σ α where
  hasNext := hasNext self
  next := next self items
  remove := Act.fail (.unsupported owner .remove)

end Window

/-! ## §2. In both directions. -/

/-- A window, the position of its next element and that of the element crossed last. -/
structure ListWindow where
  window : Window
  last : Option Place := none
  deriving Repr, DecidableEq

namespace ListWindow

variable {σ α : Type}

/-- The window inside the state. -/
def windowField (self : Field σ ListWindow) : Field σ Window :=
  self.comp { get := ListWindow.window, set := fun w s => { s with window := w } }

/-- Whether the window has a further element. -/
def hasNext (self : Field σ ListWindow) : Act σ Bool := Window.hasNext (windowField self)

/-- Cross the next element. -/
def next (self : Field σ ListWindow) (items : Sequence σ α) : Act σ α := do
  let x ← Window.next (windowField self) items
  self.modify fun s => { s with last := some s.window.index.preceding }
  return x

/-- Whether the window has an element before the present position. -/
def hasPrevious (self : Field σ ListWindow) : Act σ Bool := do
  let here ← self.read
  return here.window.index.toInt > here.window.start.toInt

/-- Cross the element before the present position. -/
def previous (self : Field σ ListWindow) (items : Sequence σ α) : Act σ α := do
  let here ← self.read
  if here.window.index.toInt ≤ here.window.start.toInt then Act.fail .ended
  else do
    let i := here.window.index.preceding
    -- The position moves first, as in a cursor.
    self.write { window := { here.window with index := i }, last := some i }
    items.get i

/-- The number of elements of the window before the present position. -/
def nextIndex (self : Field σ ListWindow) : Act σ Int := do
  let here ← self.read
  return here.window.index.toInt - here.window.start.toInt

/-- One less than `nextIndex`. -/
def previousIndex (self : Field σ ListWindow) : Act σ Int := do
  return (← nextIndex self) - 1

/-- Replace the element crossed last. -/
def set (self : Field σ ListWindow) (items : Sequence σ α) (x : α) : Act σ Unit := do
  match (← self.read).last.filter Place.fromFront with
  | none => Act.fail (.notMoved .set true)
  | some i => items.set i x

/-- Go back to the start of the window. -/
def reset (self : Field σ ListWindow) : Act σ Unit :=
  self.modify fun s => { window := { s.window with index := s.window.start }, last := none }

/-- The window as a source. -/
def twoWay (owner : String) (self : Field σ ListWindow) (items : Sequence σ α) :
    TwoWay σ α where
  hasNext := hasNext self
  next := next self items
  remove := Act.fail (.unsupported owner .remove)
  hasPrevious := hasPrevious self
  previous := previous self items
  nextIndex := nextIndex self
  previousIndex := previousIndex self
  set := set self items
  add := fun _ => Act.fail (.unsupported owner .add)

end ListWindow

end Cursors
