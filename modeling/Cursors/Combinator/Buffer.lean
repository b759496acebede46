/-
  Cursors.Combinator.Buffer
  ─────────────────────────
  **GOING BACK OVER A FORWARD SOURCE.**

  Elements are kept as they are pulled, so that a cursor can move back over
  them.  The source is advanced only by a forward move past the kept ones.
  Edits change the kept elements and never the source; in strict mode they
  are refused.
-/
import Cursors.Action

namespace Cursors

/-- The kept elements, the number of them before the gap, and the position of the element
crossed last. -/
structure Buffer (α : Type) where
  kept : List α := []
  position : Nat := 0
  last : Option Nat := none
  deriving Repr, DecidableEq

namespace Buffer

variable {σ α : Type}

/-! ## §1. Moves. -/

/-- Whether an element lies after the gap, kept or not. -/
def hasNext (self : Field σ (Buffer α)) (source : Forward σ α) : Act σ Bool := do
  let here ← self.read
  if here.position < here.kept.length then return true
  source.hasNext

/-- Record that the gap moved forward across an element. -/
def cross (self : Field σ (Buffer α)) : Act σ Unit :=
  self.modify fun b => { b with last := some b.position, position := b.position + 1 }

/-- Cross the element after the gap, pulling and keeping it if need be. -/
def next (self : Field σ (Buffer α)) (source : Forward σ α) : Act σ α := do
  let here ← self.read
  match here.kept[here.position]? with
  | some x => do
      cross self
      return x
  | none => do
      -- If the source fails, nothing is kept and the gap stays.
      let x ← source.next
      self.modify fun b => { b with kept := b.kept ++ [x] }
      cross self
      return x

/-- Whether an element lies before the gap. -/
def hasPrevious (self : Field σ (Buffer α)) : Act σ Bool := do
  return (← self.read).position > 0

/-- Cross the element before the gap. -/
def previous (self : Field σ (Buffer α)) : Act σ α := do
  let here ← self.read
  if here.position = 0 then Act.fail .ended
  else do
    self.write { here with position := here.position - 1, last := some (here.position - 1) }
    match here.kept[here.position - 1]? with
    | some x => return x
    | none => Act.fail (.refused .index)

/-- The number of elements before the gap. -/
def nextIndex (self : Field σ (Buffer α)) : Act σ Int := do
  return (← self.read).position

/-- One less than `nextIndex`. -/
def previousIndex (self : Field σ (Buffer α)) : Act σ Int := do
  return (← nextIndex self) - 1

/-! ## §2. Edits. -/

/-- Fail if edits are refused; whether they are is asked each time. -/
def checkMutable (strict : Act σ Bool) (edit : Edit) : Act σ Unit := do
  if ← strict then Act.fail (.strict edit) else pure ()

/-- The position of the element crossed last. -/
def lastCrossed (self : Field σ (Buffer α)) (edit : Edit) : Act σ Nat := do
  match (← self.read).last with
  | none => Act.fail (.notMoved edit true)
  | some i => pure i

/-- Remove the element crossed last from the kept ones. -/
def remove (strict : Act σ Bool) (self : Field σ (Buffer α)) : Act σ Unit := do
  checkMutable strict .remove
  let i ← lastCrossed self .remove
  self.modify fun b =>
    { b with kept := b.kept.eraseIdx i,
             position := if i < b.position then b.position - 1 else b.position,
             last := none }

/-- Replace the element crossed last among the kept ones. -/
def set (strict : Act σ Bool) (self : Field σ (Buffer α)) (x : α) : Act σ Unit := do
  checkMutable strict .set
  let i ← lastCrossed self .set
  self.modify fun b => { b with kept := b.kept.set i x }

/-- Keep a new element just before the gap. -/
def add (strict : Act σ Bool) (self : Field σ (Buffer α)) (x : α) : Act σ Unit := do
  checkMutable strict .add
  self.modify fun b =>
    { b with kept := b.kept.take b.position ++ x :: b.kept.drop b.position,
             position := b.position + 1, last := none }

/-- Go back to the front. -/
def reset (self : Field σ (Buffer α)) : Act σ Unit :=
  self.modify ({ · with position := 0, last := none })

/-- The buffer as a source. -/
def twoWay (strict : Act σ Bool) (self : Field σ (Buffer α)) (source : Forward σ α) :
    TwoWay σ α where
  hasNext := hasNext self source
  next := next self source
  remove := remove strict self
  hasPrevious := hasPrevious self
  previous := previous self
  nextIndex := nextIndex self
  previousIndex := previousIndex self
  set := set strict self
  add := add strict self

end Buffer

end Cursors
