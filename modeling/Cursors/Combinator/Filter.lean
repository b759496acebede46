/-
  Cursors.Combinator.Filter
  ─────────────────────────
  **KEEPING THE MATCHING ELEMENTS.**

  The filter walks over the elements that do not match and holds the match
  that it found ahead until it is taken.  While it holds one, the source has
  moved past the element returned last, so a removal is refused.
-/
import Cursors.Action

namespace Cursors

/-- The state of a filter: the match found ahead. -/
structure Filter (α : Type) where
  ahead : Option α := none
  deriving Repr, DecidableEq

namespace Filter

variable {σ α : Type}

/-- The next match of the source, at most `fuel` elements away. -/
def search (hasNext : Act σ Bool) (next : Act σ α) (accepts : α → Act σ Bool) :
    Nat → Act σ (Option α)
  | 0 => Act.unfinished
  | fuel + 1 => do
      if ← hasNext then
        let x ← next
        if ← accepts x then return some x
        search hasNext next accepts fuel
      else return none

/-- Whether there is a further match; it is held ahead. -/
def hasNext (fuel : Nat) (self : Field σ (Filter α)) (source : Forward σ α)
    (accepts : α → Act σ Bool) : Act σ Bool := do
  if (← self.read).ahead.isSome then return true
  match ← search source.hasNext source.next accepts fuel with
  | some x => do
      self.write { ahead := some x }
      return true
  | none => return false

/-- Hand out the next match. -/
def next (fuel : Nat) (self : Field σ (Filter α)) (source : Forward σ α)
    (accepts : α → Act σ Bool) : Act σ α := do
  match (← self.read).ahead with
  | some x => do
      self.write {}
      return x
  | none =>
      match ← search source.hasNext source.next accepts fuel with
      | some x => do
          self.write {}
          return x
      | none => Act.fail .ended

/-- Remove the match handed out last, unless the source moved on already. -/
def remove (self : Field σ (Filter α)) (source : Forward σ α) : Act σ Unit := do
  if (← self.read).ahead.isSome then Act.fail (.heldAhead .remove false)
  else source.remove

/-- The matches as a source. -/
def forward (fuel : Nat) (self : Field σ (Filter α)) (source : Forward σ α)
    (accepts : α → Act σ Bool) : Forward σ α where
  hasNext := hasNext fuel self source accepts
  next := next fuel self source accepts
  remove := remove self source

end Filter

end Cursors
