/-
  Cursors.Primitive.Single
  ────────────────────────
  **ITERATORS OVER AT MOST ONE VALUE.**

  `Single` gives its value once after each reset, unless the value was
  removed, which is for good.  `ListSingle` moves across its value in both
  directions.  The empty source has neither a value nor a state.
-/
import Cursors.Action

namespace Cursors

variable {σ α : Type}

/-! ## §1. None at all. -/

/-- The source without elements. -/
def Forward.empty : Forward σ α where
  hasNext := pure false
  next := Act.fail .ended
  remove := Act.fail .nothingHeld

/-! ## §2. One value, forward. -/

/-- A value, whether it is still to be given, and whether it was removed. -/
structure Single (α : Type) where
  item : α
  fresh : Bool := true
  removed : Bool := false
  deriving Repr, DecidableEq

namespace Single

/-- Whether the value is still to be given. -/
def hasNext (self : Field σ (Single α)) : Act σ Bool := do
  let here ← self.read
  return here.fresh && !here.removed

/-- Give the value. -/
def next (self : Field σ (Single α)) : Act σ α := do
  let here ← self.read
  if here.fresh && !here.removed then do
    self.write { here with fresh := false }
    return here.item
  else Act.fail .ended

/-- Remove the value that was given, if it is `removable` at all. -/
def remove (owner : String) (removable : Act σ Bool) (self : Field σ (Single α)) :
    Act σ Unit := do
  if !(← removable) then Act.fail (.unsupported owner .remove)
  else
    let here ← self.read
    if here.removed || here.fresh then Act.fail (.notMoved .remove false)
    else self.write { here with removed := true }

/-- Give the value anew. -/
def reset (self : Field σ (Single α)) : Act σ Unit := self.modify ({ · with fresh := true })

/-- The value as a source. -/
def forward (owner : String) (removable : Act σ Bool) (self : Field σ (Single α)) :
    Forward σ α where
  hasNext := hasNext self
  next := next self
  remove := remove owner removable self

end Single

/-! ## §3. One value, in both directions. -/

/-- A value, the side of it on which the gap lies, whether a move led there, and whether the
value was removed. -/
structure ListSingle (α : Type) where
  item : α
  atFront : Bool := true
  moved : Bool := false
  removed : Bool := false
  deriving Repr, DecidableEq

namespace ListSingle

/-- Whether the value lies after the gap. -/
def hasNext (self : Field σ (ListSingle α)) : Act σ Bool := do
  let here ← self.read
  return here.atFront && !here.removed

/-- Cross the value forward. -/
def next (self : Field σ (ListSingle α)) : Act σ α := do
  let here ← self.read
  if here.atFront && !here.removed then do
    self.write { here with atFront := false, moved := true }
    return here.item
  else Act.fail .ended

/-- Whether the value lies before the gap. -/
def hasPrevious (self : Field σ (ListSingle α)) : Act σ Bool := do
  let here ← self.read
  return !here.atFront && !here.removed

/-- Cross the value backward. -/
def previous (self : Field σ (ListSingle α)) : Act σ α := do
  let here ← self.read
  if !here.atFront && !here.removed then do
    self.write { here with atFront := true, moved := true }
    return here.item
  else Act.fail .ended

/-- The number of values before the gap. -/
def nextIndex (self : Field σ (ListSingle α)) : Act σ Int := do
  let here ← self.read
  return if here.atFront || here.removed then 0 else 1

/-- One less than `nextIndex`. -/
def previousIndex (self : Field σ (ListSingle α)) : Act σ Int := do
  return (← nextIndex self) - 1

/-- Remove the value that was crossed. -/
def remove (self : Field σ (ListSingle α)) : Act σ Unit := do
  let here ← self.read
  if !here.moved || here.removed then Act.fail (.notMoved .remove true)
  else self.write { here with removed := true, moved := false }

/-- Replace the value that was crossed. -/
def set (self : Field σ (ListSingle α)) (x : α) : Act σ Unit := do
  let here ← self.read
  if !here.moved then Act.fail (.notMoved .set true)
  else self.write { here with item := x }

/-- Go back to the front. -/
def reset (self : Field σ (ListSingle α)) : Act σ Unit :=
  self.modify ({ · with atFront := true, moved := false })

/-- The value as a source. -/
def twoWay (owner : String) (self : Field σ (ListSingle α)) : TwoWay σ α where
  hasNext := hasNext self
  next := next self
  remove := remove self
  hasPrevious := hasPrevious self
  previous := previous self
  nextIndex := nextIndex self
  previousIndex := previousIndex self
  set := set self
  add := fun _ => Act.fail (.unsupported owner .add)

end ListSingle

end Cursors
