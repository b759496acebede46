/-
  Cursors.Combinator.ListFilter
  ─────────────────────────────
  **KEEPING THE MATCHING ELEMENTS, IN BOTH DIRECTIONS.**

  One match can be held on either side, found by walking the source past
  it.  A change of direction first walks back over the held match.  The
  index counts the matches crossed forward less those crossed backward.
  Edits are passed on to the source while no match is held.
-/
import Cursors.Combinator.Filter

namespace Cursors

/-- The direction of a move. -/
inductive Direction where
  | forward
  | backward
  deriving DecidableEq, Repr

/-- The state of a two-way filter: the matches held on either side, the index, and the move
after which a removal is possible. -/
structure ListFilter (α : Type) where
  ahead : Option α := none
  behind : Option α := none
  index : Int := 0
  moved : Option Direction := none
  deriving Repr, DecidableEq

namespace ListFilter

variable {σ α : Type}

/-! ## §1. Looking for a match. -/

/-- The next match of the source. -/
def scanForward (fuel : Nat) (source : TwoWay σ α) (accepts : α → Act σ Bool) :
    Act σ (Option α) :=
  Filter.search source.hasNext source.next accepts fuel

/-- The previous match of the source. -/
def scanBackward (fuel : Nat) (source : TwoWay σ α) (accepts : α → Act σ Bool) :
    Act σ (Option α) :=
  Filter.search source.hasPrevious source.previous accepts fuel

/-- The match after the gap, walking back over one held behind first. -/
def seekNext (fuel : Nat) (self : Field σ (ListFilter α)) (source : TwoWay σ α)
    (accepts : α → Act σ Bool) : Act σ (Option α) := do
  if (← self.read).behind.isSome then
    self.modify ({ · with behind := none })
    -- The first hit is the match that was held behind; the second is the one after the gap.
    match ← scanForward fuel source accepts with
    | none => return none
    | some _ => do
        self.modify ({ · with ahead := none })
        scanForward fuel source accepts
  else scanForward fuel source accepts

/-- The match before the gap, walking back over one held ahead first. -/
def seekPrevious (fuel : Nat) (self : Field σ (ListFilter α)) (source : TwoWay σ α)
    (accepts : α → Act σ Bool) : Act σ (Option α) := do
  if (← self.read).ahead.isSome then
    self.modify ({ · with ahead := none })
    -- The first hit is the match that was held ahead; the second is the one before the gap.
    match ← scanBackward fuel source accepts with
    | none => return none
    | some _ => do
        self.modify ({ · with behind := none })
        scanBackward fuel source accepts
  else scanBackward fuel source accepts

/-! ## §2. Moves. -/

/-- Whether a match lies after the gap; it is held. -/
def hasNext (fuel : Nat) (self : Field σ (ListFilter α)) (source : TwoWay σ α)
    (accepts : α → Act σ Bool) : Act σ Bool := do
  if (← self.read).ahead.isSome then return true
  match ← seekNext fuel self source accepts with
  | some x => do
      self.modify ({ · with ahead := some x })
      return true
  | none => return false

/-- Record that the gap moved forward across a match. -/
def crossForward (self : Field σ (ListFilter α)) : Act σ Unit :=
  self.modify fun s =>
    { s with ahead := none, index := s.index + 1, moved := some .forward }

/-- Cross the match after the gap. -/
def next (fuel : Nat) (self : Field σ (ListFilter α)) (source : TwoWay σ α)
    (accepts : α → Act σ Bool) : Act σ α := do
  match (← self.read).ahead with
  | some x => do
      crossForward self
      return x
  | none =>
      match ← seekNext fuel self source accepts with
      | some x => do
          crossForward self
          return x
      | none => Act.fail .ended

/-- Whether a match lies before the gap; it is held. -/
def hasPrevious (fuel : Nat) (self : Field σ (ListFilter α)) (source : TwoWay σ α)
    (accepts : α → Act σ Bool) : Act σ Bool := do
  if (← self.read).behind.isSome then return true
  match ← seekPrevious fuel self source accepts with
  | some x => do
      self.modify ({ · with behind := some x })
      return true
  | none => return false

/-- Record that the gap moved backward across a match. -/
def crossBackward (self : Field σ (ListFilter α)) : Act σ Unit :=
  self.modify fun s =>
    { s with behind := none, index := s.index - 1, moved := some .backward }

/-- Cross the match before the gap. -/
def previous (fuel : Nat) (self : Field σ (ListFilter α)) (source : TwoWay σ α)
    (accepts : α → Act σ Bool) : Act σ α := do
  match (← self.read).behind with
  | some x => do
      crossBackward self
      return x
  | none =>
      match ← seekPrevious fuel self source accepts with
      | some x => do
          crossBackward self
          return x
      | none => Act.fail .ended

/-- The index of the gap among the matches. -/
def nextIndex (self : Field σ (ListFilter α)) : Act σ Int := do
  return (← self.read).index

/-- One less than `nextIndex`. -/
def previousIndex (self : Field σ (ListFilter α)) : Act σ Int := do
  return (← nextIndex self) - 1

/-! ## §3. Edits. -/

/-- Fail if a match is held on either side. -/
def checkGap (self : Field σ (ListFilter α)) (edit : Edit) : Act σ Unit := do
  let here ← self.read
  if here.ahead.isSome || here.behind.isSome then Act.fail (.heldAhead edit true)
  else pure ()

/-- Remove the match crossed last. -/
def remove (self : Field σ (ListFilter α)) (source : TwoWay σ α) : Act σ Unit := do
  checkGap self .remove
  match (← self.read).moved with
  | none => Act.fail (.notMoved .remove true)
  | some _ => do
      -- Only a match crossed forward was counted before the gap.
      source.remove
      self.modify fun s =>
        { s with index := if s.moved = some .forward then s.index - 1 else s.index,
                 moved := none }

/-- Replace the element that the source crossed last. -/
def set (self : Field σ (ListFilter α)) (source : TwoWay σ α) (x : α) : Act σ Unit := do
  checkGap self .set
  source.set x

/-- Put an element into the source at its gap; it counts if it matches. -/
def add (self : Field σ (ListFilter α)) (source : TwoWay σ α)
    (accepts : α → Act σ Bool) (x : α) : Act σ Unit := do
  checkGap self .add
  source.add x
  if ← accepts x then self.modify fun s => { s with index := s.index + 1 }
  self.modify ({ · with moved := none })

/-- The matches as a source. -/
def twoWay (fuel : Nat) (self : Field σ (ListFilter α)) (source : TwoWay σ α)
    (accepts : α → Act σ Bool) : TwoWay σ α where
  hasNext := hasNext fuel self source accepts
  next := next fuel self source accepts
  remove := remove self source
  hasPrevious := hasPrevious fuel self source accepts
  previous := previous fuel self source accepts
  nextIndex := nextIndex self
  previousIndex := previousIndex self
  set := set self source
  add := add self source accepts

end ListFilter

end Cursors
