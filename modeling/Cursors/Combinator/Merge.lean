/-
  Cursors.Combinator.Merge
  ────────────────────────
  **MERGING SORTED SOURCES.**

  Every source has a slot that holds at most one of its elements ahead.  A
  step fills the empty slots from left to right and, in the same pass, finds
  the least element; among equal ones the leftmost slot wins.  The sources
  are expected to be sorted, which is not checked.

  Reading an empty slot gives the default of the element type: a comparison
  that itself advances the merge can empty a slot under the pass.
-/
import Cursors.Action

namespace Cursors

/-- The state of a merge: the slots, the source that gave the last element, and whether that
element can still be removed. -/
structure Merge (α : Type) where
  slots : List (Option α) := []
  last : Option Nat := none
  removable : Bool := false
  deriving Repr, DecidableEq

namespace Merge

variable {σ α : Type}

/-- The merge of `count` sources before its first step. -/
def start (count : Nat) : Merge α where
  slots := List.replicate count none

/-- What slot `i` holds. -/
def slot (m : Merge α) (i : Nat) : Option α := (m.slots[i]?).join

/-! ## §1. One pass over the slots. -/

/-- Fill slot `i` from its source if it is empty; whether it is filled now. -/
def fill (self : Field σ (Merge α)) (i : Nat) (source : Forward σ α) : Act σ Bool := do
  if ((← self.read).slot i).isSome then return true
  if ← source.hasNext then
    let x ← source.next
    self.modify fun m => { m with slots := m.slots.set i (some x) }
  -- The source may have used the merge meanwhile, so the slot is looked at again.
  return ((← self.read).slot i).isSome

/-- The slot with the least element among `best` and the slots from `i` on, filling them on
the way; `precedes` tells whether its first argument goes strictly before its second. -/
def scan [Inhabited α] (self : Field σ (Merge α)) (precedes : α → α → Act σ Bool) :
    List (Forward σ α) → Nat → Option (Nat × α) → Act σ (Option (Nat × α))
  | [], _, best => pure best
  | source :: rest, i, best => do
      if ← fill self i source then
        let better ← match best with
          | none => pure true
          | some (_, least) => do
              precedes (((← self.read).slot i).getD default) least
        if better then
          -- The comparison may have used the merge as well.
          let x := ((← self.read).slot i).getD default
          scan self precedes rest (i + 1) (some (i, x))
        else scan self precedes rest (i + 1) best
      else scan self precedes rest (i + 1) best

/-! ## §2. The operations. -/

/-- Whether one of the sources has a further element; none of them can end the merge by failing
to tell. -/
def anyHasNext : List (Forward σ α) → Act σ Bool
  | [] => pure false
  | source :: rest => do
      if ← source.hasNext.sealed then return true
      anyHasNext rest

/-- Whether an element is held or a source has more. -/
def hasNext (self : Field σ (Merge α)) (sources : List (Forward σ α)) : Act σ Bool := do
  if (← self.read).slots.any Option.isSome then return true
  anyHasNext sources

/-- The least element of all slots. -/
def next [Inhabited α] (self : Field σ (Merge α)) (sources : List (Forward σ α))
    (precedes : α → α → Act σ Bool) : Act σ α := do
  match ← scan self precedes sources 0 none with
  | none => Act.fail .ended
  | some (i, _) => do
      let x := ((← self.read).slot i).getD default
      self.modify fun m => { slots := m.slots.set i none, last := some i, removable := true }
      return x

/-- The source that gave the last element, or `-1`. -/
def lastIndex (self : Field σ (Merge α)) : Act σ Int := do
  match (← self.read).last with
  | none => return -1
  | some i => return i

/-- Remove the element given last from its source. -/
def remove (self : Field σ (Merge α)) (sources : List (Forward σ α)) : Act σ Unit := do
  let here ← self.read
  if !here.removable then Act.fail (.notMoved .remove false)
  else
    match here.last.bind (sources[·]?) with
    | none => Act.fail (.notMoved .remove false)
    | some source => do
        source.remove
        self.modify ({ · with removable := false })

/-- The merge as a source. -/
def forward [Inhabited α] (self : Field σ (Merge α)) (sources : List (Forward σ α))
    (precedes : α → α → Act σ Bool) : Forward σ α where
  hasNext := hasNext self sources
  next := next self sources precedes
  remove := remove self sources

end Merge

end Cursors
