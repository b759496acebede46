/-
  Cursors.Primitive.Peek
  ──────────────────────
  **LOOK-AHEAD OVER A PLAIN SOURCE.**

  A plain source can only be asked for its next element.  `Peek` adds
  `hasNext` by pulling one element early and holding it until it is taken.
  An end of the source is final: from then on the source is left alone, even
  if it could go on.  Any other failure passes through and leaves the held
  element and the end mark as they were.
-/
import Cursors.Action

namespace Cursors

/-- The state of a look-ahead: the element pulled early, and whether the source has ended. -/
structure Peek (α : Type) where
  ahead : Option α := none
  ended : Bool := false
  deriving Repr, DecidableEq

namespace Peek

variable {σ α : Type}

/-- Whether there is a further element; at most one is pulled to find out. -/
def hasNext (self : Field σ (Peek α)) (pull : Act σ α) : Act σ Bool := do
  let here ← self.read
  if here.ahead.isSome then return true
  -- The source is not asked again once it has ended.
  if here.ended then return false
  match ← Act.attempt Failure.isEnd pull with
  | .ok x => do
      self.modify ({ · with ahead := some x })
      return true
  | .error _ => do
      self.modify ({ · with ended := true })
      return false

/-- Hand out the held element, pulling it first if need be. -/
def next (self : Field σ (Peek α)) (pull : Act σ α) : Act σ α := do
  if ← hasNext self pull then
    match (← self.read).ahead with
    | some x => do
        self.modify ({ · with ahead := none })
        return x
    | none => Act.fail .ended
  else Act.fail .ended

/-- The look-ahead as a source; what was pulled cannot be removed. -/
def forward (owner : String) (self : Field σ (Peek α)) (pull : Act σ α) : Forward σ α where
  hasNext := hasNext self pull
  next := next self pull
  remove := Act.fail (.unsupported owner .remove)

end Peek

end Cursors
